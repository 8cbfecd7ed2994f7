import ShapeTyping.Schema.Build
import ShapeTyping.Validation.Validator
import ShapeTyping.Proofs.Bag.Language
import ShapeTyping.Proofs.Interval
import ShapeTyping.Proofs.Bag.Evaluation
import ShapeTyping.Proofs.Bag.Enumeration
import ShapeTyping.Proofs.Bag.Positions
import ShapeTyping.Proofs.Bag.Repetition
import ShapeTyping.Proofs.Bag.EmptyBag
import ShapeTyping.Proofs.Reachability.BackEdge
import ShapeTyping.Proofs.Reachability.Components
import ShapeTyping.Proofs.Limits
import ShapeTyping.Proofs.NodeConstraint
import ShapeTyping.Proofs.Value.Integer
import ShapeTyping.Proofs.Value.Decimal
import ShapeTyping.Proofs.Schema.Built
import ShapeTyping.Proofs.Schema.References
import ShapeTyping.Proofs.Schema.NormalForm
import ShapeTyping.Proofs.Schema.Idempotence
import ShapeTyping.Proofs.Schema.SingleOccurrence
import ShapeTyping.Proofs.Schema.Inlining
import ShapeTyping.Proofs.Schema.Compiled
import ShapeTyping.Proofs.Schema.Stratified
import ShapeTyping.Proofs.Schema.Hoisted
import ShapeTyping.Proofs.Schema.Dependencies
import ShapeTyping.Proofs.Schema.Stratification
import ShapeTyping.Proofs.Schema.Hoisting
import ShapeTyping.Proofs.Schema.BuiltForm
import ShapeTyping.Proofs.Schema.WellFormed
import ShapeTyping.Proofs.Schema.Extraction
import ShapeTyping.Proofs.Schema.Renaming
import ShapeTyping.Proofs.Schema.Relabelling
import ShapeTyping.Proofs.Validation.Requests
import ShapeTyping.Proofs.NodeConstraint.Patterns
import ShapeTyping.Proofs.NodeConstraint.Parts
import ShapeTyping.Proofs.NodeConstraint.Languages
import ShapeTyping.Proofs.Value.Comparison
import ShapeTyping.Proofs.Value.DigitFacets
import ShapeTyping.Proofs.Validation.Cache
import ShapeTyping.Proofs.Validation.Trace
import ShapeTyping.Proofs.Validation.Negation
import ShapeTyping.Proofs.Validation.Greatest
import ShapeTyping.Proofs.Validation.Matching
import ShapeTyping.Proofs.Validation.MatchedIn
import ShapeTyping.Proofs.Validation.Readings
import ShapeTyping.Proofs.Validation.Sound
import ShapeTyping.Proofs.Validation.Answers
import ShapeTyping.Proofs.Validation.Stability
import ShapeTyping.Proofs.Validation.Strict
import ShapeTyping.Proofs.Validation.WiderLimits
import ShapeTyping.Proofs.Validation.History
import ShapeTyping.Proofs.Validation.Refutations
import ShapeTyping.Proofs.Validation.Depth
import ShapeTyping.Proofs.Validation.MatchedTriples
import ShapeTyping.Proofs.Validation.Positive
import ShapeTyping.Proofs.Validation.RenamedTyping
import ShapeTyping.Proofs.Validation.RenamedRun
import ShapeTyping.Proofs.Validation.Transparency
import ShapeTyping.Proofs.Validation.Origins
import ShapeTyping.Proofs.Validation.Integrity
import ShapeTyping.Proofs.Validation.Unmentioned
import ShapeTyping.Proofs.Validation.Representation
import ShapeTyping.Proofs.Validation.Rollback
import ShapeTyping.Proofs.Validation.Lookups
import ShapeTyping.Proofs.Validation.Repetition
import ShapeTyping.Proofs.Validation.NoConstraints
import ShapeTyping.Proofs.Validation.Counting
import ShapeTyping.Proofs.Formula.Evaluation
import ShapeTyping.Proofs.Formula.Classes
import ShapeTyping.Proofs.Formula.Search
import ShapeTyping.Proofs.Formula.Semantics
import ShapeTyping.Proofs.Formula.LastAssignment
import ShapeTyping.Proofs.Formula.Components
import ShapeTyping.Proofs.Formula.Quantifiers
import ShapeTyping.Proofs.Formula.Trace

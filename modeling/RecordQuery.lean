import RecordQuery.Proofs.Builtins.Rounding
import RecordQuery.Proofs.Builtins.Safety
import RecordQuery.Proofs.Builtins.Splitting
import RecordQuery.Proofs.Coercions.Lists
import RecordQuery.Proofs.Coercions.Numbers
import RecordQuery.Proofs.Evaluation.Collisions
import RecordQuery.Proofs.Evaluation.Names
import RecordQuery.Proofs.Evaluation.Negations
import RecordQuery.Proofs.Evaluation.NumberTexts
import RecordQuery.Proofs.Evaluation.SanitizedKeys
import RecordQuery.Proofs.Evaluation.Strictness
import RecordQuery.Proofs.Formulas.Calls
import RecordQuery.Proofs.Formulas.FunctionTexts
import RecordQuery.Proofs.Formulas.Shorthand
import RecordQuery.Proofs.Grammar.Prefixes
import RecordQuery.Proofs.Grouping.Extremes
import RecordQuery.Proofs.Grouping.Nesting
import RecordQuery.Proofs.Lexing.Escapes
import RecordQuery.Proofs.Lexing.JsonStrings
import RecordQuery.Proofs.Numbers.Comparisons
import RecordQuery.Proofs.Numbers.Prefixes
import RecordQuery.Proofs.Numbers.Scanning
import RecordQuery.Proofs.Numbers.Texts
import RecordQuery.Proofs.Printing.RoundTrip
import RecordQuery.Proofs.Recursion.Bounds
import RecordQuery.Proofs.Selection.Columns
import RecordQuery.Proofs.Selection.Pages
import RecordQuery.Proofs.Selection.Rows
import RecordQuery.Proofs.Sorting.Failures
import RecordQuery.Proofs.Sorting.Passes
import RecordQuery.Proofs.Sorting.Successive
import RecordQuery.Proofs.Sorting.Suffixes
import RecordQuery.Proofs.Values.Elements
import RecordQuery.Proofs.Values.Leaves
import RecordQuery.Proofs.Values.Positional
import RecordQuery.Proofs.Values.Reordering
import RecordQuery.Query.Options

import Formulary.Text.Blank
import Formulary.Text.Casing
import Formulary.Text.DecimalDigit
import Formulary.Text.WordChar
import Formulary.Decimal.Arithmetic
import Formulary.Decimal.Power
import Formulary.Decimal.Binary
import Formulary.Number
import Formulary.Value
import Formulary.Error
import Formulary.Node
import Formulary.Pattern.Matching
import Formulary.Function.Registry
import Formulary.RuleIndex
import Formulary.Chain
import Formulary.Descent
import Formulary.Evaluation
import Formulary.TokenStream
import Formulary.Calculator
import Formulary.CommandLine.Run
import Formulary.Main
import Formulary.Proofs.Search
import Formulary.Proofs.Cost
import Formulary.Proofs.Rewriting
import Formulary.Proofs.Errors
import Formulary.Proofs.StepBound
import Formulary.Proofs.Conventional
import Formulary.Proofs.Levels
import Formulary.Proofs.Precedence
import Formulary.Proofs.CallSites
import Formulary.Proofs.AnsweredCalls
import Formulary.Proofs.Arguments
import Formulary.Proofs.Laziness
import Formulary.Proofs.Brackets
import Formulary.Proofs.Parts
import Formulary.Proofs.FunctionCalls
import Formulary.Proofs.Abridgement
import Formulary.Proofs.Groups
import Formulary.Proofs.Signs
import Formulary.Proofs.WholeNumbers
import Formulary.Proofs.Skipping
import Formulary.Proofs.SignSteps
import Formulary.Proofs.SignRuns
import Formulary.Proofs.SignedSums
import Formulary.Proofs.SignedProducts
import Formulary.Proofs.Hundredths
import Formulary.Proofs.ExactValues
import Formulary.Proofs.IntegerArithmetic
import Formulary.Proofs.AdjacentOperators
import Formulary.Proofs.StepBudget
import Formulary.Proofs.Reading
import Formulary.Proofs.Lexemes
import Formulary.Proofs.Arrangement
import Formulary.Proofs.Clauses
import Formulary.Proofs.ClauseArithmetic
import Formulary.Proofs.Comparisons
import Formulary.Proofs.Conditions
import Formulary.Proofs.ComparisonChains
import Formulary.Proofs.Numerals
import Formulary.Proofs.LowerCase
import Formulary.Proofs.Names
import Formulary.Proofs.Legibility
import Formulary.Proofs.Rendering
import Formulary.Proofs.Registration
import Formulary.Proofs.Runs
import Formulary.Proofs.CallPatterns
import Formulary.Proofs.CallOrder
import Formulary.Proofs.RegistrationOrder
import Formulary.Proofs.StoredRules
import Formulary.Proofs.Remembered
import Formulary.Proofs.Shapes
import Formulary.Proofs.Failures
import Formulary.Proofs.MixedChains
import Formulary.Proofs.Pieces
import Formulary.Proofs.Bindings
import Formulary.Proofs.Dependencies
import Formulary.Proofs.WholeLiterals
import Formulary.Proofs.Percentages
import Formulary.Proofs.Requests
import Formulary.Proofs.InputLines
import Formulary.Proofs.IntegerQuotients
import Formulary.Proofs.IntegerPowers
import Formulary.Proofs.TwoOperations
import Formulary.Proofs.HeldFractions
import Formulary.Proofs.RepeatedSquaring
import Formulary.Proofs.HeldPowers
import Formulary.Proofs.PowerRange
import Formulary.Proofs.LongDivision
import Formulary.Proofs.FlooredRemainders
import Formulary.Proofs.EqualNumbers
import Formulary.Proofs.RoundedPlaces
import Formulary.Proofs.RoundingOrder
import Formulary.Proofs.PrintedNumbers
import Formulary.Proofs.Coercions
import Formulary.Proofs.WrittenDates
import Formulary.Proofs.DateNumbers
import Formulary.Proofs.SmallLetters
import Formulary.Proofs.CaseBlindness
import Formulary.Proofs.NumeralRange
import Formulary.Proofs.Faults
import Formulary.Proofs.ExactSums
import Formulary.Proofs.Extremes
import Formulary.Proofs.Averages
import Formulary.Proofs.ValueOrder
import Formulary.Proofs.Spans
import Formulary.Proofs.MatchedRuns

import SamplingFrame.Number.Whole

/-!
# Failures to load

Why a document is not what it should be. Only some failures have a wording of their own; everything
else is a document of the wrong form.
-/

namespace SamplingFrame

/-- Why a document does not load. -/
inductive LoadFailure where
  | unknownField (name : String)
  | unknownFieldCode (code : Nat)
  | noField
  | unknownVariant (name : String) (known : List String)
  | missingKey (key : String)
  | repeatedKey (key : String)
  | noExpression
  | malformed
  deriving DecidableEq, Repr

namespace LoadFailure

/-- Names in backticks, with commas between them. -/
def listed : List String → String
  | [] => ""
  | [s] => "`" ++ s ++ "`"
  | s :: ss => "`" ++ s ++ "`, " ++ listed ss

/-- The wording of a failure, if it has one. -/
def message? : LoadFailure → Option String
  | .unknownField name => some ("未知字段: " ++ name)
  | .unknownFieldCode code => some ("未知字段代码: " ++ String.ofList (Whole.digits code))
  | .noField => some "data did not match any variant of untagged enum FieldId"
  | .unknownVariant name known =>
    some ("unknown variant `" ++ name ++ "`, expected one of " ++ listed known)
  | .missingKey key => some ("missing field `" ++ key ++ "`")
  | .repeatedKey key => some ("duplicate field `" ++ key ++ "`")
  | .noExpression => some "data did not match any variant of untagged enum PredicateExpression"
  | .malformed => none

end LoadFailure

end SamplingFrame

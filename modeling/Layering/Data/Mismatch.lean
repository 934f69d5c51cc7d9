/-!
# Mismatches

Why a document is no value of a type. The first mismatch met from left to right
is the one reported; `Mismatch.message?` is its text.
-/

namespace Layering.Data

/-- Why a document does not hold a value of the type asked for. -/
inductive Mismatch
  /-- The text is not well formed at this place. -/
  | malformed
  | missingField (name : String)
  | duplicateField (name : String)
  | unknownVariant (name : String) (expected : List String)
  | invalidType (found expected : String)
  | invalidValue (found expected : String)
  | invalidLength (length : Nat) (expected : String)
  deriving DecidableEq

/-- Alternatives in words. -/
def oneOf (names : List String) : String :=
  let ticked := names.map fun n => "`" ++ n ++ "`"
  match ticked with
  | [] => "there are no variants"
  | [a] => "expected " ++ a
  | [a, b] => "expected " ++ a ++ " or " ++ b
  | _ => "expected one of " ++ ", ".intercalate ticked

/-- The text of a mismatch. A malformed text has none of its own. -/
def Mismatch.message? : Mismatch → Option String
  | malformed => none
  | missingField name => some ("missing field `" ++ name ++ "`")
  | duplicateField name => some ("duplicate field `" ++ name ++ "`")
  | unknownVariant name expected => some ("unknown variant `" ++ name ++ "`, " ++ oneOf expected)
  | invalidType found expected => some ("invalid type: " ++ found ++ ", expected " ++ expected)
  | invalidValue found expected => some ("invalid value: " ++ found ++ ", expected " ++ expected)
  | invalidLength n expected => some ("invalid length " ++ toString n ++ ", expected " ++ expected)

end Layering.Data

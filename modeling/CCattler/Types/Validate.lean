import CCattler.Go.Strings

/-! # Names of secrets

A name is built from segments of lower case letters and digits, with hyphens inside, that
dots and slashes join.
-/

namespace CCattler.Types

open Go

def maxResourceNameLength : Nat := 253

/-- `[a-z0-9]`. -/
def isLowerAlphanumeric (b : UInt8) : Bool := (97 ≤ b && b ≤ 122) || (48 ≤ b && b ≤ 57)

/-- `[a-z0-9]([a-z0-9-]{0,n-2}[a-z0-9])?` for a greatest length `n`. -/
def isNameSegment (greatest : Nat) (segment : Str) : Bool :=
  segment.all (fun b => isLowerAlphanumeric b || b == 45) &&
    segment.head?.any isLowerAlphanumeric && segment.getLast?.any isLowerAlphanumeric &&
    decide (segment.length ≤ greatest)

/-- `ValidateSecretName(name) == nil`: segments joined by dots or slashes. -/
def validateSecretName (secretName : Str) : Bool :=
  decide (secretName.length ≤ maxResourceNameLength) &&
    (Str.split Str.slash secretName).all (fun part =>
      (Str.split 46 part).all (isNameSegment maxResourceNameLength))

example : validateSecretName (lit "payments/db.pass-word") = true := by decide

example : validateSecretName (lit "payments//db") = false := by decide

end CCattler.Types

import CCattler.Go.Strings

/-! # Audit entries -/

namespace CCattler.Security

open Go

/-- `sanitizeForAudit`: control characters escaped, what follows `/secret/` redacted. -/
def sanitizeForAudit (input : Str) : Str :=
  let sanitized := input.flatMap (fun b =>
    if b = 10 then lit "\\n" else if b = 13 then lit "\\r" else if b = 9 then lit "\\t" else [b])
  match Str.cut (lit "/secret/") sanitized with
  | none => sanitized
  | some (before, _) => before ++ lit "/secret/[REDACTED]"

inductive AuditDecision where
  | allow
  | deny
  deriving DecidableEq, Repr

/-- `AuditEntry`, without the time that the log adds. -/
structure AuditEntry where
  principal : Str
  action : Str
  target : Str
  decision : AuditDecision
  authMethod : Str
  policy : Str
  onBehalfOf : Str
  deriving DecidableEq, Repr

end CCattler.Security

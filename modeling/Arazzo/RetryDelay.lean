import Arazzo.Context
import Arazzo.Duration
import Arazzo.HttpDate

/-! How long to wait before a step is tried again. -/

namespace Arazzo.RetryDelay

def timeUntil (now : Duration) (date : Nat) : Duration :=
  ⟨(Duration.ofSeconds date).nanos - now.nanos⟩

/-- `Retry-After` in seconds, or as a date after `now`. -/
def ofHeaders? (now : Duration) (headers : Table String) : Option Duration :=
  (header? "retry-after" headers).bind fun value =>
    let cs := Text.trimChars value.toList
    match Text.readSignedNat? (Nat.pow 2 64 - 1) cs with
    | some n => some (Duration.ofSeconds n)
    | none =>
      match Decimal.float? cs with
      | some x => Duration.ofFloat? x
      | none => (HttpDate.read? (String.ofList cs)).map (timeUntil now)

/-- The response's wish goes before the action's own delay; both are capped. -/
def delay (own : Option Float) (headers : Option (Table String)) (cap now : Duration) :
    Duration :=
  let wanted := match headers.bind (ofHeaders? now) with
    | some d => some d
    | none => own.bind Duration.ofFloat?
  Duration.min (wanted.getD ⟨0⟩) cap

end Arazzo.RetryDelay

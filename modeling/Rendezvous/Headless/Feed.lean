import Rendezvous.Headless

/-!
# The feed of a headless run

What happens to a run and what it does, one line each, so that a run can be led by any program
that owns the sockets. A line has a verb, a number, and what belongs to the verb; bytes that
arrive are written as pairs of hexadecimal digits, bytes that are sent as a quoted literal.
-/

namespace Rendezvous.Headless.Feed

open Text

/-- A number in decimal digits. -/
def number? (s : List Char) : Option Nat :=
  if !s.isEmpty && s.all Char.isDigit then some (Numeral.digitsValue s) else none

/-- Bytes in pairs of hexadecimal digits. -/
def hexBytes? : List Char → Option Bytes
  | [] => some []
  | [_] => none
  | hi :: lo :: rest => do
    let hi ← Percent.hexValue? (UInt8.ofNat hi.toNat)
    let lo ← Percent.hexValue? (UInt8.ofNat lo.toNat)
    return UInt8.ofNat (hi * 16 + lo) :: (← hexBytes? rest)

/-- The end of a connection: a word, or the number of an error. Nothing written is a clean end. -/
def ending? : List (List Char) → Option Channel.Ending
  | [] => some .clean
  | [word] => match String.ofList word with
    | "refused" => some .refused
    | "unnumbered" => some .unnumbered
    | "foreign" => some .foreign
    | _ => (number? word).map fun n => .system n
  | _ => none

/-- The event of a verb with a number and the words behind it. -/
def event? (verb : String) (n : Nat) (rest : List (List Char)) : Option Step :=
  match verb, rest with
  | "up", [] => some (.network (.up n))
  | "fail", rest => (ending? rest).map fun e => .network (.fail n e)
  | "data", [digits] => (hexBytes? digits).map fun b => .network (.data n b)
  | "lost", rest => (ending? rest).map fun e => .network (.lost n e)
  | "resolved", ips => some (.network (.resolved n (ips.map String.ofList)))
  | "unresolved", [] => some (.network (.lookupFailed n false))
  | "unresolved", _ => some (.network (.lookupFailed n true))
  | "fire", [] => some (.fire n)
  | _, _ => none

/-- The step that a line stands for. -/
def step? (line : String) : Option Step :=
  match (splitOn ' ' (trim line.toList)).filter (!·.isEmpty) with
  | [word] => match String.ofList word with
    | "signal" => some .signal
    | "interrupt" => some .interrupt
    | _ => none
  | verb :: n :: rest => (number? n).bind fun n => event? (String.ofList verb) n rest
  | [] => none

/-- The line of something that a run does. -/
def line : Network.Signal → String
  | .connect n address => s!"connect {n} {address.host} {address.port}"
  | .write n bytes => s!"write {n} " ++ String.ofList (Quoted.bytes bytes)
  | .hangUp n => s!"hangup {n}"
  | .lookup n host port family => s!"lookup {n} {host} {port} {family.name}"
  | .timer n delay => s!"timer {n} " ++ String.ofList (Quoted.hexDigits 16 delay.toBits.toNat)
  | .timerCancelled n => s!"cancel {n}"

/-- The line of a record. -/
def recordLine (r : Record) : String := s!"[{r.severity.name}] {r.text}"

end Rendezvous.Headless.Feed

import Rendezvous.Proofs.Config.Layers
import Rendezvous.Proofs.Numeral.Real

/-!
# Settings that a client can start with

Settings are loaded only if a client can start with them: there is a server and a name, the port is
one, and there is room for a response. The delay is above zero unless its text says that it is no
number. The check passes over such a delay, since it looks for one that is at most zero.
-/

namespace Rendezvous.Config

open Numeral

variable {e : Environment} {files : String → Except FileError Bytes} {a : Arguments} {c : Config}
  {assigned : List Assignment}

/-- Settings have no fault where nothing of them is empty or out of bounds. Of the delay it is only
known that it is not at most zero. -/
theorem fault?_eq_none_iff :
    c.fault? = none ↔
      c.server ≠ "" ∧ (1 ≤ c.port ∧ c.port ≤ 65535) ∧ c.clientName ≠ "" ∧
        ¬ c.reconnectDelay ≤ 0 ∧ 1024 ≤ c.maxResponseSize := by
  have hport : (!(0 < c.port && c.port < 65536)) = true ↔ ¬ (1 ≤ c.port ∧ c.port ≤ 65535) := by
    simp only [Bool.not_eq_true', Bool.and_eq_false_iff, decide_eq_false_iff_not]
    omega
  simp only [fault?, String.isEmpty_iff, hport]
  constructor
  · intro h
    split_ifs at h with hserver hrange hname hdelay hsize
    exact ⟨hserver, hrange, hname, hdelay, Int.not_lt.1 hsize⟩
  · rintro ⟨hserver, hrange, hname, hdelay, hsize⟩
    rw [if_neg hserver, if_neg (not_not.2 hrange), if_neg hname, if_neg hdelay,
      if_neg (Int.not_lt.2 hsize)]

/-! ### The delay -/

/-- The text that the delay is read from: that of the file before that of the environment. -/
def delayText (e : Environment) (assigned : List Assignment) : Option String :=
  lastOf assigned "reconnect_delay" <|> e.get? "SIGNAL_RECONNECT_DELAY"

/-- The delay is what its text is read as, and two where there is no text. -/
theorem readOr_delayText (hfile : ¬ Misread readDelay (lastOf assigned "reconnect_delay"))
    (henv : ¬ Misread readDelay (e.get? "SIGNAL_RECONNECT_DELAY")) :
    readOr readDelay (delayText e assigned) 2 = .ok (layered e assigned a).reconnectDelay := by
  simp only [readOr_eq_ok, delayText, layered]
  cases hlast : lastOf assigned "reconnect_delay" with
  | none => exact ⟨henv, rfl⟩
  | some text =>
    rw [hlast] at hfile
    refine ⟨hfile, ?_⟩
    cases hread : readDelay text with
    | error error => exact absurd ⟨text, rfl, error, hread⟩ hfile
    | ok delay => simp [valueOf, hread, Except.toOption]

/-- A delay that was read is no number just where its text writes that. -/
theorem isNaN_of_readOr {text : Option String} {x : Float} (h : readOr readDelay text 2 = .ok x) :
    x.isNaN = true ↔ ∃ written, text = some written ∧ WritesNoNumber written.toList := by
  cases text with
  | none =>
    cases h
    exact iff_of_false (by decide +kernel) (by simp)
  | some written =>
    have hread : real? written.toList = some x := by
      simp only [readOr, readDelay] at h
      split at h
      · next hreal =>
        cases h
        exact hreal
      · cases h
    rw [isNaN_of_real? hread]
    simp

/-- Settings that were loaded can be used, and the client waits for a time above zero, unless the
text of the delay writes that it is no number. -/
theorem load_usable (h : load e files a = .ok c) :
    c.server ≠ "" ∧ c.clientName ≠ "" ∧ (1 ≤ c.port ∧ c.port ≤ 65535) ∧
      1024 ≤ c.maxResponseSize ∧
      (0 < c.reconnectDelay ↔
        ¬ ∃ text, delayText e (assignmentsAt files a.config) = some text ∧
          WritesNoNumber text.toList) := by
  obtain ⟨hserver, hport, hname, hdelay, hsize⟩ := fault?_eq_none_iff.1 (fault?_of_load h)
  refine ⟨hserver, hname, hport, hsize, ?_⟩
  obtain ⟨-, henv, -, hfile, -, -, rfl⟩ := load_eq_ok.1 h
  rw [zero_lt_iff hdelay, ← isNaN_of_readOr (readOr_delayText hfile henv), Bool.not_eq_true]

private theorem eq_ok_of_toOption {ε α : Type} {x : Except ε α} {y : α} (h : x.toOption = some y) :
    x = .ok y := by
  cases x with
  | error error => cases h
  | ok value =>
    cases h
    rfl

/-- The delay of the file is the least double above zero. That of the environment, which it hides,
writes that it is no number. -/
theorem load_usable_least :
    let e : Environment := { bindings := [("SIGNAL_RECONNECT_DELAY", " -NaN ")], machine := "here" }
    let files : String → Except FileError Bytes := fun _ ↦
      .ok (Text.Utf8.encode "reconnect_delay: 4.9_4e-324 # seconds\n".toList)
    let a : Arguments := { config := some "settings" }
    ∃ c, load e files a = .ok c ∧ c.reconnectDelay.toBits = 1 ∧ 0 < c.reconnectDelay := by
  intro e files a
  have hbits : (load e files a).toOption.map (·.reconnectDelay.toBits) = some 1 := by
    decide +kernel
  obtain ⟨c, hc, hleast⟩ := Option.map_eq_some_iff.1 hbits
  have hload := eq_ok_of_toOption hc
  obtain ⟨-, -, -, -, hdelay⟩ := load_usable hload
  refine ⟨c, hload, hleast, hdelay.2 ?_⟩
  have htext : delayText e (assignmentsAt files a.config) = some "4.9_4e-324" := by decide +kernel
  rintro ⟨text, hwritten, hword⟩
  obtain rfl : text = "4.9_4e-324" := Option.some.inj (hwritten.symm.trans htext)
  exact absurd (writesNoNumber_iff.1 hword) (isNoNumber_iff.not.2 (by decide +kernel))

/-- A delay that writes that it is no number passes the check, and is not above zero. -/
theorem load_delay_unchecked :
    let e : Environment := {
      bindings := [("SIGNAL_RECONNECT_DELAY", "nan")]
      user := some "tester"
      machine := "box" }
    ∃ c, load e (fun _ ↦ .error .missing) {} = .ok c ∧ ¬ 0 < c.reconnectDelay := by
  intro e
  have hdelay : (load e (fun _ ↦ .error .missing) {}).toOption.map
      (fun c ↦ decide (0 < c.reconnectDelay)) = some false := by decide +kernel
  obtain ⟨c, hc, hnot⟩ := Option.map_eq_some_iff.1 hdelay
  exact ⟨c, eq_ok_of_toOption hc, of_decide_eq_false hnot⟩

end Rendezvous.Config

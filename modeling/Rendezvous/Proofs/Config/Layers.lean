import Rendezvous.Config.Load
import Rendezvous.Proofs.Config.File

/-!
# Where settings come from

Each setting has its value from the highest layer that gives one: the command line, the file, the
environment, the default. There are no settings just where a number cannot be read, even if a
higher layer gives the setting again, where the file cannot be read, or where the settings are not
usable together.
-/

namespace Rendezvous.Config

open Text

/-! ### Numbers from texts -/

section Numbers

variable {α : Type} {read : String → Except ConfigError α} {text : Option String}

/-- Whether a setting is given by a text that cannot be read. -/
def Misread (read : String → Except ConfigError α) (text : Option String) : Prop :=
  ∃ written, text = some written ∧ ∃ error, read written = .error error

/-- The value that a text is read as, if there is one. -/
def valueOf (read : String → Except ConfigError α) (text : Option String) : Option α :=
  text.bind fun written ↦ (read written).toOption

/-- A setting is read unless its text is misread, and has the value of the text, if there is one. -/
theorem readOr_eq_ok {otherwise x : α} :
    readOr read text otherwise = .ok x ↔
      ¬ Misread read text ∧ (valueOf read text).getD otherwise = x := by
  cases text with
  | none => simp [readOr, Misread, valueOf]
  | some written => cases h : read written <;> simp [readOr, Misread, valueOf, h, Except.toOption]

end Numbers

/-! ### Layers -/

variable {e : Environment} {files : String → Except FileError Bytes} {a : Arguments}
  {base c : Config} {path : Option String} {assigned : List Assignment}

/-- The settings as every layer gives them: those of the command line before those of the file,
those before the ones of the environment, and the defaults behind all. -/
def layered (e : Environment) (assigned : List Assignment) (a : Arguments) : Config where
  server := (a.server <|> lastOf assigned "server_ip" <|> e.get? "SIGNAL_SERVER").getD "localhost"
  port := (a.port.join <|> valueOf readPort (lastOf assigned "server_port") <|>
    valueOf readPort (e.get? "SIGNAL_PORT")).getD 8888
  clientName := (a.name <|> lastOf assigned "client_name" <|>
    (e.get? "SIGNAL_CLIENT_NAME").filter (!·.isEmpty)).getD (e.user.getD "user" ++ "@" ++ e.machine)
  reconnectDelay := (valueOf readDelay (lastOf assigned "reconnect_delay") <|>
    valueOf readDelay (e.get? "SIGNAL_RECONNECT_DELAY")).getD 2
  maxResponseSize := 1048576
  logLevel := a.logLevel.getD
    (lastOf assigned "log_level" <|> e.get? "SIGNAL_LOG_LEVEL" <|> some "INFO")

/-- Whether the file that a command line names cannot be had as text. An empty path names none. -/
def Unreadable (files : String → Except FileError Bytes) (path : Option String) : Prop :=
  ∃ p, path = some p ∧ p ≠ "" ∧
    ((∃ cause, files p = .error cause) ∨
      ∃ content, files p = .ok content ∧ Utf8.decode? content = none)

/-- The assignments of the file that a command line names. Without a file there are none. -/
def assignmentsAt (files : String → Except FileError Bytes) (path : Option String) :
    List Assignment :=
  match path.filter (!·.isEmpty) with
  | none => []
  | some p => (files p).toOption.elim [] fun content ↦ assignments (Utf8.decodeLossy content)

/-- Whether settings do not pass the check that they are put to. A port that was left out does
not. -/
def Fails (a : Arguments) (c : Config) : Prop :=
  a.port = some none ∨ ∃ error, c.validate = .error error

/-- The settings of the environment, with neither a file nor a command line. -/
theorem ofEnvironment_eq_ok :
    ofEnvironment e = .ok c ↔
      ¬ Misread readPort (e.get? "SIGNAL_PORT") ∧
      ¬ Misread readDelay (e.get? "SIGNAL_RECONNECT_DELAY") ∧
      layered e [] {} = c := by
  simp only [ofEnvironment, bind_eq_ok, readOr_eq_ok, pure, Except.pure, Except.ok.injEq]
  constructor
  · rintro ⟨port, ⟨hport, rfl⟩, delay, ⟨hdelay, rfl⟩, rfl⟩
    exact ⟨hport, hdelay, rfl⟩
  · rintro ⟨hport, hdelay, rfl⟩
    exact ⟨_, ⟨hport, rfl⟩, _, ⟨hdelay, rfl⟩, rfl⟩

private theorem fileText_eq_ok {content : Bytes} {text : List Char} :
    fileText content = .ok text ↔
      (Utf8.decode? content).isSome ∧ Utf8.decodeLossy content = text := by
  rw [← Utf8.flaw?_eq_none_iff, fileText]
  cases Utf8.flaw? content <;> simp

private theorem withFile_eq_ok {content : Bytes} :
    base.withFile content = .ok c ↔
      (Utf8.decode? content).isSome ∧
      base.overlay (assignments (Utf8.decodeLossy content)) = .ok c := by
  simp only [withFile, bind_eq_ok, fileText_eq_ok, and_assoc, exists_and_left, exists_eq_left']

private theorem withFileAt_eq_ok :
    base.withFileAt files path = .ok c ↔
      ¬ Unreadable files path ∧ base.overlay (assignmentsAt files path) = .ok c := by
  have hnothing : base.overlay [] = .ok base := rfl
  cases path with
  | none => simp [withFileAt, Unreadable, assignmentsAt, hnothing]
  | some p =>
    by_cases hp : p = ""
    · subst hp
      have hnone : (some "").filter (!·.isEmpty) = none := rfl
      simp [withFileAt, Unreadable, assignmentsAt, hnone, hnothing]
    · have hsome : (some p).filter (!·.isEmpty) = some p := by
        rw [Option.filter_some, if_pos (by simpa using hp)]
      cases hfile : files p with
      | error cause => simp [withFileAt, Unreadable, hsome, hp, hfile]
      | ok content =>
        simp [withFileAt, Unreadable, assignmentsAt, hsome, hp, hfile, withFile_eq_ok,
          Option.isSome_iff_ne_none, Except.toOption]

/-- What the command line leaves of settings is settled once all layers are in place. -/
theorem check_eq_ok {whole : Config} :
    (if a.port = some none && !whole.server.isEmpty then .error .vacantPort else whole.validate) =
        .ok c ↔
      ¬ Fails a whole ∧ whole = c := by
  have hvalidate : whole.validate = .ok c ↔
      (¬ ∃ error, whole.validate = .error error) ∧ whole = c := by
    rw [validate]
    cases whole.fault? <;> simp
  by_cases hvacant : a.port = some none
  · -- A server that is empty is found first.
    by_cases hserver : whole.server.isEmpty = true
    · simp [Fails, hvacant, hserver, validate, fault?]
    · simp [Fails, hvacant, hserver]
  · simp [Fails, hvacant, hvalidate]

private theorem withArguments_eq_layered {port : Int} {delay : Float}
    (hport : (valueOf readPort (lastOf assigned "server_port")).getD (layered e [] {}).port = port)
    (hdelay : (valueOf readDelay (lastOf assigned "reconnect_delay")).getD
      (layered e [] {}).reconnectDelay = delay) :
    withArguments { layered e [] {} with
      server := (lastOf assigned "server_ip").getD (layered e [] {}).server
      port
      clientName := (lastOf assigned "client_name").getD (layered e [] {}).clientName
      reconnectDelay := delay
      logLevel := lastOf assigned "log_level" <|> (layered e [] {}).logLevel } a =
    layered e assigned a := by
  subst hport hdelay
  simp [withArguments, layered, lastOf, valueOf]

/-- The settings that are loaded, and when there are any. -/
theorem load_eq_ok :
    load e files a = .ok c ↔
      ¬ Misread readPort (e.get? "SIGNAL_PORT") ∧
      ¬ Misread readDelay (e.get? "SIGNAL_RECONNECT_DELAY") ∧
      ¬ Misread readPort (lastOf (assignmentsAt files a.config) "server_port") ∧
      ¬ Misread readDelay (lastOf (assignmentsAt files a.config) "reconnect_delay") ∧
      ¬ Unreadable files a.config ∧
      ¬ Fails a (layered e (assignmentsAt files a.config) a) ∧
      layered e (assignmentsAt files a.config) a = c := by
  simp only [load, bind_eq_ok, ofEnvironment_eq_ok, withFileAt_eq_ok, overlay_eq_ok, readOr_eq_ok]
  constructor
  · rintro ⟨-, ⟨hport, hdelay, rfl⟩, -, ⟨hfile, number, delay, ⟨hport', hnumber⟩,
      ⟨hdelay', hseconds⟩, rfl⟩, h⟩
    rw [withArguments_eq_layered hnumber hseconds, check_eq_ok] at h
    exact ⟨hport, hdelay, hport', hdelay', hfile, h⟩
  · rintro ⟨hport, hdelay, hport', hdelay', hfile, h⟩
    refine ⟨_, ⟨hport, hdelay, rfl⟩, _, ⟨hfile, _, _, ⟨hport', rfl⟩, ⟨hdelay', rfl⟩, rfl⟩, ?_⟩
    rw [withArguments_eq_layered rfl rfl, check_eq_ok]
    exact h

/-- Settings that were loaded have no fault. -/
theorem fault?_of_load (h : load e files a = .ok c) : c.fault? = none := by
  obtain ⟨-, -, -, -, -, hchecked, rfl⟩ := load_eq_ok.1 h
  have hvalid := (not_or.1 hchecked).2
  rw [validate] at hvalid
  cases hfault : (layered e (assignmentsAt files a.config) a).fault? with
  | none => rfl
  | some fault => exact absurd ⟨.unusable fault, by rw [hfault]⟩ hvalid

/-- What is loaded has every setting from the highest layer that gives it. Nothing is loaded just
where a text that stands for a number cannot be read, in the environment or in the file, where the
file itself cannot, or where the settings of all layers together do not pass the check. -/
theorem load_eq_layered (e : Environment) (files : String → Except FileError Bytes)
    (a : Arguments) :
    (∀ c, load e files a = .ok c → c = layered e (assignmentsAt files a.config) a) ∧
    ((∃ error, load e files a = .error error) ↔
      Misread readPort (e.get? "SIGNAL_PORT") ∨
      Misread readDelay (e.get? "SIGNAL_RECONNECT_DELAY") ∨
      Misread readPort (lastOf (assignmentsAt files a.config) "server_port") ∨
      Misread readDelay (lastOf (assignmentsAt files a.config) "reconnect_delay") ∨
      Unreadable files a.config ∨
      Fails a (layered e (assignmentsAt files a.config) a)) := by
  have herror : (∃ error, load e files a = .error error) ↔ ¬ ∃ c, load e files a = .ok c := by
    cases load e files a <;> simp
  constructor
  · intro c h
    obtain ⟨-, -, -, -, -, -, rfl⟩ := load_eq_ok.1 h
    rfl
  · rw [herror]
    simp only [load_eq_ok, exists_and_left, exists_eq', and_true, not_and_or, not_not]

/-- Settings with a port from all three layers, a name that is empty in the environment, and a host
that the file gives twice. -/
theorem load_eq_layered_three :
    let e : Environment := {
      bindings := [("SIGNAL_PORT", "9000"), ("SIGNAL_CLIENT_NAME", ""), ("SIGNAL_SERVER", "far")]
      user := some "me"
      machine := "here" }
    let files : String → Except FileError Bytes := fun _ ↦
      .ok (Utf8.encode "server_ip: near\nserver_port: 9001\nserver_ip: ::1\n".toList)
    let a : Arguments := { config := some "settings", port := some (some 9002) }
    ∃ c, load e files a = .ok c ∧
      c.server = "::1" ∧ c.port = 9002 ∧ c.clientName = "me@here" ∧ c.logLevel = some "INFO" := by
  intro e files a
  have hok : (load e files a).isOk = true := by decide +kernel
  obtain ⟨c, hc⟩ : ∃ c, load e files a = .ok c := by
    cases h : load e files a with
    | error error => rw [h] at hok; cases hok
    | ok c => exact ⟨c, rfl⟩
  have hlayered := (load_eq_layered e files a).1 c hc
  refine ⟨c, hc, ?_, ?_, ?_, ?_⟩ <;> rw [hlayered] <;> decide +kernel

end Rendezvous.Config

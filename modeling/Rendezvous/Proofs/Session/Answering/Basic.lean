import Rendezvous.Proofs.Session.Change
import Rendezvous.Proofs.Session.Ledger

/-!
# The command link at every moment

The bytes of an answer are held under the limit of the settings in every state that a session comes
to, and whatever a session does of itself, a socket that is not connected is not connected
afterwards: it may be dialled, but only the server's side brings a connection about.
-/

namespace Rendezvous

/-! ### The limit on an answer -/

namespace CommandLink

variable {ν : Type}

private theorem limit_start (c : CommandLink) (what : Exchange) (bytes : Bytes) (address : Address)
    (h : Host ν) : (c.start what bytes address h).2.1.framer.limit = c.framer.limit := by
  rw [start]
  split
  · rfl
  · rcases hconnect : h.connect c.socket address with ⟨_ | _, after⟩ <;>
      simp only [hconnect] <;> rfl

/-- Flushing leaves the framer. -/
theorem framer_flush (c : CommandLink) (h : Host ν) : (c.flush h).2.1.framer = c.framer := by
  rw [flush]
  split
  · rfl
  · next bytes _ =>
    rcases h.send c.socket bytes with ⟨_ | _, after⟩ <;> rfl

variable {c : CommandLink} {bytes : Bytes}

/-- Where the stream cannot be framed, receiving says so and keeps the bytes. -/
theorem receive_of_error {e : Wire.FramingError} (h : (c.framer.feed bytes).next? = .error e)
    (host : Host ν) :
    c.receive bytes host = (.error e, { c with framer := c.framer.feed bytes }, host) := by
  rw [receive, Wire.Framer.poll, h]

/-- Where the response is not complete, receiving keeps the bytes. -/
theorem receive_of_none (h : (c.framer.feed bytes).next? = .ok none) (host : Host ν) :
    c.receive bytes host = (.ok none, { c with framer := c.framer.feed bytes }, host) := by
  rw [receive, Wire.Framer.poll, h]

/-- A complete response ends the exchange, closes the socket and drops what follows it. -/
theorem receive_of_some {response : Wire.Response} {rest : Bytes}
    (h : (c.framer.feed bytes).next? = .ok (some (response, rest))) (host : Host ν) :
    c.receive bytes host = (.ok (some (c.exchange, response)),
      { c with framer := c.framer.reset, exchange := none }, host.close c.socket) := by
  rw [receive, Wire.Framer.poll, h]
  rfl

private theorem limit_receive (c : CommandLink) (bytes : Bytes) (host : Host ν) :
    (c.receive bytes host).2.1.framer.limit = c.framer.limit := by
  rcases h : (c.framer.feed bytes).next? with e | _ | ⟨response, rest⟩
  · rw [receive_of_error h]
    rfl
  · rw [receive_of_none h]
    rfl
  · rw [receive_of_some h]
    rfl

end CommandLink

namespace Machine

open SessionM

/-- The settings are those that a session was made with, and an answer is held under their
limit. -/
structure IsCapped (config : Config) (m : Machine) : Prop where
  made : m.config = config
  capped : ∀ c ∈ m.session.command, c.framer.limit = some config.maxResponseSize

variable {config : Config} {m m' : Machine}

private theorem isCapped_reset (hmade : m.config = config) : m.reset.IsCapped config where
  made := m.config_reset.trans hmade
  capped c hc := by
    rw [m.isReset_reset.command] at hc
    cases hc

/-- Another command link with the same limit. -/
theorem IsCapped.putCommand (h : m.IsCapped config) {c : CommandLink}
    (hc : m.session.command = some c) {after : CommandLink × Host Note}
    (hlimit : after.1.framer.limit = c.framer.limit) : (m.putCommand after).IsCapped config where
  made := h.made
  capped c' hc' := by
    cases hc'
    exact hlimit.trans (h.capped c hc)

private theorem IsCapped.openLinks (h : m.IsCapped config) : m.openLinks.IsCapped config where
  made := m.config_openLinks.trans h.made
  capped c hc := by
    rw [m.session_openLinks] at hc
    cases hc
    exact congrArg (fun made ↦ some made.maxResponseSize) h.made

/-- Whatever becomes of a session at one go, its answers stay under the limit. -/
theorem IsCapped.change {late : Int → Prop} {tell : Event → SessionM Unit}
    (htell : Keeps (IsCapped config) tell) (h : m.IsCapped config)
    (hchange : m.Change late tell m') : m'.IsCapped config := by
  cases hchange with
  | fail => exact htell _ _ (isCapped_reset h.made)
  | giveUp => exact htell _ _ (isCapped_reset h.made)
  | refuse => exact htell _ _ h
  | dial _ request command =>
    have hdialled := h.openLinks.putCommand command
      (CommandLink.limit_start _ .signIn request m.openLinks.session.address m.openLinks.host)
    exact ⟨hdialled.made, hdialled.capped⟩
  | dialRefused => exact htell _ _ (isCapped_reset h.openLinks.made)
  | dialUnwritten => exact h.openLinks
  | relay _ _ command => exact h.putCommand command (CommandLink.limit_start _ _ _ _ _)
  | signOut _ _ command => exact h.putCommand command (CommandLink.limit_start _ _ _ _ _)
  | quiet =>
    constructor
    · exact m.config_quiet.trans h.made
    · rw [session_quiet]
      exact h.capped
  | flush command =>
    exact h.putCommand command (congrArg Wire.Framer.limit (CommandLink.framer_flush _ _))
  | receive command => exact h.putCommand command (CommandLink.limit_receive _ _ _)
  | abort command => exact h.putCommand command rfl
  | adopt _ command _ bytes =>
    have hread := h.putCommand command (CommandLink.limit_receive _ bytes m.host)
    exact ⟨hread.made, hread.capped⟩
  | signIn =>
    apply htell.announce
    exact ⟨h.made, h.capped⟩
  | sent => exact htell _ _ h
  | enter => exact htell _ _ ⟨h.made, h.capped⟩
  | depart => exact htell _ _ ⟨h.made, h.capped⟩
  | message => exact htell _ _ h
  | name | lookUp | resolve | pend | leave | issueWait | rearm | receiveNotify | abortNotify | arm
  | fire | lookedUp | socket | observe | grant => exact ⟨h.made, h.capped⟩

private theorem isKept_isCapped {late : Int → Prop} (config : Config) :
    IsKept late (IsCapped config) where
  note _ _ _ h := ⟨h.made, h.capped⟩
  close _ h := isCapped_reset h.made
  change _ _ _ htell h hchange := h.change htell hchange

/-- The framers of a session have the limit of its settings, in every run. -/
theorem isCapped_run (config : Config) (observed : Bool) (policy : Policy) (o : Observer)
    (depth : Nat) (steps : List Step) :
    (run o depth (fresh config observed policy) steps).IsCapped config := by
  apply (isKept_isCapped config).run
  exact ⟨rfl, fun c hc ↦ by cases hc⟩

end Machine

/-! ### Connections -/

private theorem Ledger.Turn.shut {l l' : Ledger} {a : Action} (h : l.Turn a l') {k : Nat}
    (hshut : l.phaseOf k ≠ .connected) : l'.phaseOf k ≠ .connected := by
  have hset (j : Nat) {p : Channel.Phase} (hp : p ≠ .connected) :
      (l.setPhase j p).phaseOf k ≠ .connected := by
    show Function.update l.phaseOf j p k ≠ _
    rw [Function.update_apply]
    split
    · exact hp
    · exact hshut
  cases h with
  | connect => exact hset _ Channel.Phase.noConfusion
  | close => exact hset _ Channel.Phase.noConfusion
  | send | lookup | cancelLookup | schedule | cancelTimer => exact hshut

/-- No request connects a socket. -/
theorem Ledger.Turns.shut {l l' : Ledger} {asked : List Action} (h : l.Turns asked l') {k : Nat}
    (hshut : l.phaseOf k ≠ .connected) : l'.phaseOf k ≠ .connected := by
  induction h with
  | nil => exact hshut
  | cons head _ ih => exact ih (head.shut hshut)

/-- A socket that is not connected is not connected by what a session does. -/
theorem Machine.Proceeds.shut {m m' : Machine} (h : m.Proceeds m') {k : Nat}
    (hshut : m.host.phaseOf k ≠ .connected) : m'.host.phaseOf k ≠ .connected := by
  obtain ⟨new, -, hturns⟩ := h
  exact hturns.shut hshut

end Rendezvous

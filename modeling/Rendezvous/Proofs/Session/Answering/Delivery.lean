import Rendezvous.Proofs.Session.Answering.Basic
import Rendezvous.Proofs.Session.Polling.Runs
import Rendezvous.Proofs.Session.Proceeding

/-!
# What an answer comes to

The bytes of an answer come in chunks on the command connection. As long as they hold no complete
response and can still become one, all that happens is that they are held. The first complete
response is the answer, and with it the connection is closed; bytes that can never become a response
end the session. Either way the bytes that come behind are not heard. So the session is the same in
every respect however the bytes are cut.
-/

namespace Rendezvous

open Wire

/-- Whether the first response held, if one is complete, is within the limit. -/
def Wire.Framer.FirstFits (f : Framer) : Prop :=
  ∀ response rest, f.next? = .ok (some (response, rest)) →
    ∀ max ∈ f.limit, (response.raw.length : Int) ≤ max

/-- Bytes that were refused are refused with more behind them. -/
theorem Wire.Framer.FirstFits.error {f : Framer} {more : Bytes} (hfits : (f.feed more).FirstFits)
    {e : FramingError} (h : f.next? = .error e) : ∃ e', (f.feed more).next? = .error e' := by
  rcases Framer.next?_feed_of_error h more with hrefused | ⟨response, rest, hfound, max, hmax, hlt⟩
  · exact hrefused
  · exact absurd (hfits response rest hfound max hmax) (Int.not_le.2 hlt)

namespace Machine

open SessionM

variable {m : Machine} {c : CommandLink} {f : Framer} {depth : Nat}

/-- The machine under another framer of its command link. -/
def holding (m : Machine) (c : CommandLink) (f : Framer) : Machine :=
  { m with session := { m.session with command := some { c with framer := f } } }

/-- What the bytes held of an answer come to: the end of the session, nothing yet, or the answer to
the exchange in flight. -/
def answered (depth : Nat) (m : Machine) (c : CommandLink) (f : Framer) : Machine :=
  match f.next? with
  | .error _ => after (fail (Observer.silent.tell depth)) m
  | .ok none => m.holding c f
  | .ok (some (response, _)) =>
    after (SessionM.react (Observer.silent.tell depth) (.commandAnswered c.exchange response))
      (m.putCommand ({ c with framer := f.reset, exchange := none }, m.host.close c.socket))

private theorem answered_of_error {e : FramingError} (h : f.next? = .error e) (depth : Nat)
    (m : Machine) (c : CommandLink) :
    m.answered depth c f = after (fail (Observer.silent.tell depth)) m := by
  rw [answered, h]

private theorem answered_of_none (h : f.next? = .ok none) (depth : Nat) (m : Machine)
    (c : CommandLink) :
    m.answered depth c f = m.holding c f := by
  rw [answered, h]

/-- A complete answer ends its exchange and is handed to the session. -/
theorem answered_of_some {response : Response} {rest : Bytes}
    (h : f.next? = .ok (some (response, rest))) (depth : Nat) (m : Machine) (c : CommandLink) :
    m.answered depth c f =
      after (SessionM.react (Observer.silent.tell depth) (.commandAnswered c.exchange response))
        (m.putCommand ({ c with framer := f.reset, exchange := none }, m.host.close c.socket)) := by
  rw [answered, h]

/-! ### What was held before -/

/-- Tearing down is the same whatever is held of an answer. -/
theorem reset_holding (hc : m.session.command = some c) (f : Framer) :
    (m.holding c f).reset = m.reset := by
  obtain ⟨config, observed, ⟨⟨delay, live⟩, p, a, n, i, d, command, notify, ⟨inFlight⟩⟩, host⟩ := m
  cases hc
  cases live <;> cases inFlight <;> cases notify <;> rfl

private theorem fail_holding (hc : m.session.command = some c) (f : Framer)
    (tell : Event → SessionM Unit) :
    after (fail tell) (m.holding c f) = after (fail tell) m := by
  show after (tell .disconnected) (m.holding c f).reset = after (tell .disconnected) m.reset
  rw [reset_holding hc]

/-- What the bytes come to does not depend on how many of them were held before. -/
theorem answered_holding (hc : m.session.command = some c) (held f : Framer) :
    (m.holding c held).answered depth { c with framer := held } f = m.answered depth c f := by
  rcases h : f.next? with e | _ | ⟨response, rest⟩
  · rw [answered_of_error h, answered_of_error h, fail_holding hc]
  · rw [answered_of_none h, answered_of_none h]
    rfl
  · rw [answered_of_some h, answered_of_some h]
    rfl

/-! ### One chunk after another -/

/-- Bytes on the command connection are held, and what is held then decides. -/
theorem step_received_answer (hc : m.session.command = some c)
    (hopen : m.host.phaseOf c.socket = .connected) (bytes : Bytes) :
    (m.step .silent depth (.socket (.number c.socket) (.received bytes))).2 =
      m.answered depth c (c.framer.feed bytes) := by
  rw [step_received_eq hopen, hc, Option.any_some, if_pos (decide_eq_true rfl)]
  apply after_eq
  rw [onCommand, ensures_bind, ensures_withCommand_of_eq hc]
  rcases hnext : (c.framer.feed bytes).next? with e | _ | ⟨response, rest⟩
  · rw [CommandLink.receive_of_error hnext, answered_of_error hnext]
    exact (ensures_const (P := (· = _))).2 (fail_holding hc _ _)
  · rw [CommandLink.receive_of_none hnext, answered_of_none hnext]
    exact ensures_pure.2 rfl
  · rw [CommandLink.receive_of_some hnext, answered_of_some hnext]
    exact (ensures_const (P := (· = _))).2 rfl

/-- Where the bytes are an answer, or can never become one, the connection is closed. -/
theorem shut_answered (hc : m.session.command = some c) (h : f.next? ≠ .ok none) :
    (m.answered depth c f).host.phaseOf c.socket ≠ .connected := by
  have htell := proceeds_silent depth
  rcases hnext : f.next? with e | _ | ⟨response, rest⟩
  · rw [answered_of_error hnext]
    apply (htell .disconnected m.reset).shut
    rw [m.phaseOf_reset fun hno ↦ absurd (.inl ⟨c, hc, rfl⟩) hno]
    exact Channel.Phase.noConfusion
  · exact absurd hnext h
  · rw [answered_of_some hnext]
    apply (proceeds_react htell (.commandAnswered c.exchange response)).shut
    show (m.host.close c.socket).phaseOf c.socket ≠ _
    rw [Host.phaseOf_close, if_pos rfl]
    exact Channel.Phase.noConfusion

/-- Chunks come to what their bytes come to at one go, provided that the limit does not refuse the
answer in them. The induction is on the chunks. -/
theorem deliver_eq_answered {chunks : List Bytes} (hc : m.session.command = some c)
    (hopen : m.host.phaseOf c.socket = .connected)
    (hready : chunks ≠ [] ∨ c.framer.next? = .ok none)
    (hfits : (c.framer.feed chunks.flatten).FirstFits) (depth : Nat) :
    m.deliver depth c.socket chunks = m.answered depth c (c.framer.feed chunks.flatten) := by
  induction chunks generalizing m c with
  | nil =>
    have hfeed : c.framer.feed [] = c.framer := by simp [Framer.feed]
    rw [List.flatten_nil, hfeed, answered_of_none (hready.resolve_left (by simp)), holding, ← hc]
    rfl
  | cons chunk rest ih =>
    rw [List.flatten_cons, ← Framer.feed_feed] at hfits ⊢
    rw [deliver_cons hopen, step_received_answer hc hopen]
    rcases hnext : (c.framer.feed chunk).next? with e | _ | ⟨response, rest'⟩
    · obtain ⟨e', he'⟩ := hfits.error hnext
      rw [deliver_of_shut (shut_answered hc (by simp [hnext])), answered_of_error hnext,
        answered_of_error he']
    · rw [answered_of_none hnext]
      have hrest := ih (m := m.holding c (c.framer.feed chunk))
        (c := { c with framer := c.framer.feed chunk }) rfl hopen (.inr hnext) hfits
      exact hrest.trans (answered_holding hc _ _)
    · have hmore := Framer.next?_feed hnext rest.flatten
      rw [deliver_of_shut (shut_answered hc (by simp [hnext])), answered_of_some hnext,
        answered_of_some hmore]
      rfl

/-- A stream whose answer is not too large comes to the same however it is cut. -/
theorem IsCapped.deliver {config : Config} {stream : Bytes} (h : m.IsCapped config)
    (hcommand : m.session.command = some c) (hempty : c.framer.buffer = [])
    (hopen : m.host.phaseOf c.socket = .connected)
    (hfits : ∀ response rest, (({} : Framer).feed stream).next? = .ok (some (response, rest)) →
      (response.raw.length : Int) ≤ config.maxResponseSize)
    (cut : Cutting stream) (depth : Nat) :
    m.deliver depth c.socket cut.chunks = m.answered depth c (c.framer.feed stream) := by
  have hfirst : (c.framer.feed stream).FirstFits := by
    intro response rest hnext max hmax
    have hlimit : c.framer.limit = some max := hmax
    rw [h.capped c hcommand] at hlimit
    cases hlimit
    have hsame : ({ c.framer.feed stream with limit := none } : Framer) =
        ({} : Framer).feed stream := by
      rw [Framer.feed, Framer.feed, hempty]
    exact hfits response rest (hsame ▸ Framer.next?_limit hnext none)
  have hdelivered := deliver_eq_answered hcommand hopen (.inl cut.ne_nil)
    (cut.flatten_chunks.symm ▸ hfirst) depth
  rwa [cut.flatten_chunks] at hdelivered

/-- The server's stream on the connection of a command, of which nothing has come before and in
which no complete response is too large, is brought to the session in chunks, up to where the client
closes the connection. However it is cut, the session and its surroundings are the same in the end:
what it remembers, what its observer heard, and all that was asked of the host. -/
theorem delivery_of_answer {config : Config} {observed : Bool} {policy : Policy} {o : Observer}
    {depth : Nat} {past : List Step} {stream : Bytes}
    (hrun : run o depth (fresh config observed policy) past = m)
    (hcommand : m.session.command = some c) (hempty : c.framer.buffer = [])
    (hopen : m.host.phaseOf c.socket = .connected)
    (hfits : ∀ response ∈ (({} : Framer).feed stream).drain.responses,
      (response.raw.length : Int) ≤ config.maxResponseSize)
    (cut cut' : Cutting stream) (depth' : Nat) :
    m.deliver depth' c.socket cut.chunks = m.deliver depth' c.socket cut'.chunks := by
  have hcapped : m.IsCapped config := hrun ▸ isCapped_run config observed policy o depth past
  have hfirst (response : Response) (rest : Bytes)
      (hnext : (({} : Framer).feed stream).next? = .ok (some (response, rest))) :
      (response.raw.length : Int) ≤ config.maxResponseSize := by
    apply hfits response
    rw [Framer.drain_of_some hnext]
    exact List.mem_cons_self
  rw [hcapped.deliver hcommand hempty hopen hfirst, hcapped.deliver hcommand hempty hopen hfirst]

/-- A session dials the server and asks to sign in. -/
def askedToSignIn : List Step := [
  .call (.connect (some "10.0.0.5") none none),
  .socket (.number 0) .connected]

/-- An answer to signing in, with a listing of two lines. -/
def welcome : Bytes := Bytes.ofAscii
  "HTTP/1.1 200 OK\r\nPragma: 7\r\nContent-Length: 18\r\n\r\nalice,7,1\nbob,9,1\n"

/-- An answer with bytes behind it comes at one go, and in three chunks of which the last comes to
a connection that is closed. -/
theorem delivery_of_answer_welcome :
    let m := run .silent 0 (fresh (Config.standard "alice") true {}) askedToSignIn
    let c : CommandLink :=
      { socket := 0, framer := { limit := some 1048576 }, exchange := some .signIn }
    let stream := welcome ++ Bytes.ofAscii "HTTP"
    (m.session.command = some c ∧ c.framer.buffer = [] ∧ m.host.phaseOf 0 = .connected) ∧
    (∀ response ∈ (({} : Framer).feed stream).drain.responses,
      (response.raw.length : Int) ≤ (Config.standard "alice").maxResponseSize) ∧
    m.deliver 0 0 [stream] =
      m.deliver 0 0 [welcome.take 20, welcome.drop 20, Bytes.ofAscii "HTTP"] ∧
    heardIn (m.newLines (m.deliver 0 0 [stream])) = [.peerConnected 9 "bob", .signedIn] := by
  intro m c stream
  have hstart : m.session.command = some c ∧ c.framer.buffer = [] ∧
      m.host.phaseOf 0 = .connected := by
    decide +kernel
  have hfits : ∀ response ∈ (({} : Framer).feed stream).drain.responses,
      (response.raw.length : Int) ≤ (Config.standard "alice").maxResponseSize := by
    decide +kernel
  have hheard : heardIn (m.newLines (m.deliver 0 0 [stream])) =
      [.peerConnected 9 "bob", .signedIn] := by
    decide +kernel
  have hsame := delivery_of_answer rfl hstart.1 hstart.2.1 hstart.2.2 hfits
    ⟨[stream], by simp, by simp⟩
    ⟨[welcome.take 20, welcome.drop 20, Bytes.ofAscii "HTTP"], by simp, by
      rw [List.flatten_cons, List.flatten_cons, List.flatten_singleton, ← List.append_assoc,
        List.take_append_drop]⟩ 0
  exact ⟨hstart, hfits, hsame, hheard⟩

end Machine

end Rendezvous

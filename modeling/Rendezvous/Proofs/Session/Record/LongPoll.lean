import Rendezvous.Proofs.Session.Record.Runs

/-!
# The long poll is never doubled

Over a notify socket only waits under the id of the session are written: one at the connection, and
another only after at least one more response that announces no close. The socket is dialled only
while it is closed.
-/

namespace Rendezvous

namespace Record

variable {roles : List Role} {limit : Option Int} {k : Nat} {past : List Entry}

/-- Of the waits of a connection, all but one were written after a response more. -/
theorem IsInOrder.length_waits_le (h : IsInOrder roles limit past)
    (hrole : roles[k]? = some .notify) :
    (writes k past).length ≤ answers limit (streamAtWrite k past) + 1 := by
  induction past with
  | nil => exact Nat.zero_le _
  | cons x past ih =>
    rw [writes_cons, streamAtWrite_cons]
    split
    · exact Nat.zero_le _
    · by_cases hwritten : x.written k = []
      · rw [if_pos hwritten, hwritten, List.append_nil]
        exact ih h.2
      · rw [if_neg hwritten]
        obtain ⟨bytes, rfl⟩ := Entry.exists_write hwritten
        rcases h.1.write k bytes rfl with ⟨hcommand, -⟩ | ⟨-, hwait⟩
        · cases hrole.symm.trans hcommand
        · have hone : (Entry.written k (.write k bytes)).length = 1 := by simp [Entry.written]
          rw [List.length_append, hone]
          rcases hwait.turn with ⟨hfirst, -⟩ | ⟨-, hmore⟩
          · rw [hfirst]
            exact Nat.le_add_left _ _
          · have hbefore := ih h.2
            omega

end Record

namespace Machine

open Record

/-- The long poll is never doubled. In the record of a lawful run, under an observer that does not
refuse to go on: what is written to a notify socket is a wait under the id that the session had
then, which ends the step; it is the first on its connection and written as that is there, or comes
after at least one more response that announces no close; so at every moment the waits of a
connection are at most one more than those responses. A socket is dialled only while it is closed.
Of the two places that dial the notify socket one looks first, and the other is the answer to
signing in: the notify socket is closed then. -/
theorem waits_take_turns (config : Config) (policy : Policy) {o : Observer}
    (ho : o.IsSteady config) (depth : Nat) {steps : List Step}
    (hlawful : (fresh config true policy).IsLawful o depth steps) :
    let m := fresh config true policy
    let story := m.record o depth steps
    let roles := (run o depth m steps).host.roles
    let limit := some config.maxResponseSize
    (∀ later k bytes past, story = later ++ .write k bytes :: past → roles[k]? = some .notify →
      IsNotifyWrite limit k bytes past ∧
      ∃ rest s, later = rest ++ [.rest s] ∧ NotifyLink.waitBytes s.selfId = .ok bytes) ∧
    (∀ later k past, story = later ++ past → roles[k]? = some .notify →
      (writes k past).length ≤ answers limit (stream k past) + 1) ∧
    (∀ later k address past, story = later ++ .dial k address :: past →
      phaseIn k past = .closed) ∧
    ∀ done rest, steps = done ++ rest → let now := run o depth m done
      now.session.phase = .signingIn → ∀ n ∈ now.session.notify,
        now.host.phaseOf n.socket = .closed := by
  intro m story roles limit
  have hready := ready_record config policy ho hlawful
  have horder : IsInOrder roles limit story := hready.kept.order
  have hsettled : IsSettled limit story := hready.kept.settled
  refine ⟨?_, ?_, ?_, ?_⟩
  · intro later k bytes past heq hrole
    have hwait : IsNotifyWrite limit k bytes past := by
      rcases (horder.inPlace heq).write k bytes rfl with ⟨hcommand, -⟩ | ⟨-, hwait⟩
      · cases hrole.symm.trans hcommand
      · exact hwait
    have hwritten : ¬ IsSettled limit (.write k bytes :: past) := fun hnothing ↦ by
      obtain ⟨s, hnext⟩ := (hnothing (.event k .connected)).rest k bytes past rfl
      cases hnext
    obtain ⟨rest, y, rfl, hy⟩ := horder.next hsettled heq hwritten
    obtain ⟨s, rfl⟩ := hy.heeds.rest k bytes past rfl
    exact ⟨hwait, rest, s, rfl, hy.rest s rfl k bytes past rfl hrole⟩
  · intro later k past heq hrole
    rw [heq] at horder
    have hwaits := horder.of_append.length_waits_le hrole
    have hanswers := answers_streamAtWrite_le limit k past
    omega
  · intro later k address past heq
    exact (horder.inPlace heq).dial k address rfl
  · intro done rest heq now hphase n hn
    rw [heq] at hlawful
    have hstands : now.Stands config False .none :=
      stands_run ho False.elim (stands_fresh config true policy) (isLawful_append.1 hlawful).1
        False.elim
    refine Decidable.byContradiction fun hopen ↦ ?_
    cases hphase.symm.trans (hstands.listening hn hopen)

/-- A session signs in and hears of two payloads in two chunks. The first is complete only with the
second chunk, which brings a part of the next payload too. -/
def heardTwice : List Step := [
  .call (.connect (some "10.0.0.5") none none),
  .socket (.newest .command) .connected,
  .socket (.newest .command) (.received (Bytes.ofAscii
    "HTTP/1.1 200 OK\r\nPragma: 7\r\nContent-Length: 6\r\n\r\na,9,1\n")),
  .socket (.newest .notify) .connected,
  .socket (.newest .notify) (.received (Bytes.ofAscii
    "HTTP/1.1 200 OK\r\nPragma: 9\r\nContent-Length: 2\r\n\r\nh")),
  .socket (.newest .notify) (.received (Bytes.ofAscii
    "iHTTP/1.1 200 OK\r\nPragma: 9\r\nContent-Length: 2\r\n\r\nhoHTTP"))]

/-- Both payloads are heard, and one wait is issued besides the first. -/
theorem waits_take_turns_heardTwice :
    let m := fresh (Config.standard "alice") true {}
    let story := m.record .silent 0 heardTwice
    Observer.silent.IsSteady (Config.standard "alice") ∧ m.IsLawful .silent 0 heardTwice ∧
      Observer.heard (run .silent 0 m heardTwice) = [.peerConnected 9 "a", .signedIn,
        .message 9 (Bytes.ofAscii "hi"), .message 9 (Bytes.ofAscii "ho")] ∧
      (writes 1 story).length = 2 ∧
      (writes 1 story).length ≤
        answers (some (Config.standard "alice").maxResponseSize) (stream 1 story) + 1 := by
  intro m story
  have hruns : m.IsLawful .silent 0 heardTwice ∧
      Observer.heard (run .silent 0 m heardTwice) = [.peerConnected 9 "a", .signedIn,
        .message 9 (Bytes.ofAscii "hi"), .message 9 (Bytes.ofAscii "ho")] ∧
      (run .silent 0 m heardTwice).host.roles[1]? = some .notify ∧
      (writes 1 (m.record .silent 0 heardTwice)).length = 2 := by
    decide +kernel
  obtain ⟨hlawful, hheard, hrole, htwo⟩ := hruns
  have hall := waits_take_turns (Config.standard "alice") {} (isSteady_silent _) 0 hlawful
  have hwaits := hall.2.1 [] 1 story (List.nil_append _).symm hrole
  exact ⟨isSteady_silent _, hlawful, hheard, htwo, hwaits⟩

end Machine

end Rendezvous

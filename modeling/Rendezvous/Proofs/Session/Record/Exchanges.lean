import Mathlib.Order.Monotone.Basic
import Rendezvous.Proofs.Session.Record.Runs

/-!
# Exchanges are paired one to one

Over a command socket, every connection carries the one request for which it was dialled. Every
report of a relay is due to a call that was granted, whose connection brought the response to it,
and no two reports are due to the same call; and every response that grants a relay is reported.
-/

namespace Rendezvous

namespace Record

variable {config : Config} {roles : List Role} {limit : Option Int} {k : Nat} {x : Entry}
  {past story later : List Entry}

/-- Whether a report of a relay is the entry of a record with so many entries before it. -/
def IsReportAt (story : List Entry) (i : Nat) : Prop :=
  ∃ later status s past, story = later ++ .heard (.messageSent status) s :: past ∧ past.length = i

/-- A report, by what came before it, is due to the call at a position of the record: the call to
relay was granted there, right after the socket was dialled for it, and over that very connection a
chunk completed the response that grants the relay. The connection was closed on it, and nothing
was reported since the call. -/
def IsDueTo (limit : Option Int) (past : List Entry) (i : Nat) : Prop :=
  ∃ k chunk earlier recent call peer payload address before,
    past = .close k :: .event k (.received chunk) :: earlier ∧
    Completes limit k chunk earlier ∧
    earlier = recent ++ .called call (some true) :: .dial k address :: before ∧
    call.relays? = some (peer, payload) ∧
    (∀ x ∈ recent, x.dials k = false ∧ ¬ x.Reports) ∧
    i = before.length + 1

/-! ### The request of a connection -/

/-- A connection over a command socket carries one request at most. -/
theorem IsInOrder.length_writes_le (h : IsInOrder roles limit past)
    (hrole : roles[k]? = some .command) : (writes k past).length ≤ 1 := by
  induction past with
  | nil => exact Nat.zero_le 1
  | cons x past ih =>
    rw [writes_cons]
    split
    · exact Nat.zero_le 1
    · by_cases hwritten : x.written k = []
      · rw [hwritten, List.append_nil]
        exact ih h.2
      · obtain ⟨bytes, rfl⟩ := Entry.exists_write hwritten
        rcases h.1.write k bytes rfl with ⟨-, hwrite⟩ | ⟨hnotify, -⟩
        · simp [hwrite.first, Entry.written]
        · cases hrole.symm.trans hnotify

/-! ### The call behind a report -/

/-- What came first after a socket was dialled, by its position in the record. -/
def openerAt (k : Nat) (past : List Entry) : Nat := past.length - (since k past).length

/-- The position of the call to which a report is due, by what came before the report. -/
def causeAt : List Entry → Nat
  | .close k :: past => openerAt k past
  | _ => 0

private theorem IsReport.isDueTo {status : Int} (h : IsReport limit status past)
    (horder : IsInOrder roles limit past) : IsDueTo limit past (causeAt past) := by
  obtain ⟨-, k, chunk, earlier, rfl, hcompletes, hunreported⟩ := h
  have hopen : phaseIn k earlier ≠ .closed := by
    rw [hcompletes.connected]
    decide
  obtain ⟨address, before, heq⟩ := horder.2.2.exists_dial hopen
  obtain ⟨x, hx, peer, payload, call, rfl, hcall⟩ := hcompletes.granted
  obtain ⟨recent, hrecent⟩ := List.getLast?_eq_some_iff.1 hx
  refine ⟨k, chunk, earlier, recent, call, peer, payload, address, before, rfl, hcompletes, ?_,
    hcall, fun y hy ↦ ?_, ?_⟩
  · refine heq.trans ?_
    rw [hrecent, List.append_assoc]
    rfl
  · have hmem : y ∈ since k earlier := by
      rw [hrecent]
      exact List.mem_append_left _ hy
    exact ⟨dials_of_mem_since hmem, hunreported y hmem⟩
  · have hlength := congrArg List.length heq
    rw [List.length_append, List.length_cons] at hlength
    simp [causeAt, openerAt, Entry.dials]
    omega

private theorem suffix_of_notMem {recent rest : List Entry} (h : x :: past <:+ recent ++ rest)
    (hx : x ∉ recent) : x :: past <:+ rest := by
  induction recent with
  | nil => exact h
  | cons y recent ih =>
    rw [List.mem_cons, not_or] at hx
    rcases List.suffix_cons_iff.1 h with heq | hsuffix
    · cases heq
      exact absurd rfl hx.1
    · exact ih hsuffix hx.2

/-- Before the call behind a report there is every report that was made before. -/
theorem IsDueTo.lt {i : Nat} (h : IsDueTo limit past i) {status : Int} {s : Session}
    {first : List Entry} (hfirst : .heard (.messageSent status) s :: first <:+ past) :
    first.length < i := by
  obtain ⟨k, chunk, earlier, recent, call, peer, payload, address, before, rfl, -, rfl, -, hrecent,
    rfl⟩ := h
  have hbefore : .heard (.messageSent status) s :: first <:+ .dial k address :: before := by
    have hmore : .heard (.messageSent status) s :: first <:+
        (.close k :: .event k (.received chunk) :: recent ++ [.called call (some true)]) ++
          .dial k address :: before := by
      simpa using hfirst
    refine suffix_of_notMem hmore ?_
    simp only [List.mem_append, List.mem_cons, List.not_mem_nil, or_false, reduceCtorEq, false_or]
    intro hmem
    have hnot := (hrecent _ (by simpa using hmem)).2
    exact hnot trivial
  exact Nat.lt_of_succ_le hbefore.length_le

private theorem IsDueTo.lt_length {i : Nat} (h : IsDueTo limit past i) : i < past.length := by
  obtain ⟨k, chunk, earlier, recent, call, peer, payload, address, before, rfl, -, rfl, -, -,
    rfl⟩ := h
  simp
  omega

end Record

namespace Machine

open Record

/-- Exchanges are paired one to one. In the record of a lawful run, under an observer that does not
refuse to go on: what is written to a command socket is written at the connection, is the request
that was queued when the socket was dialled, and is all that is written on the connection; reports
are due to calls to relay that were granted, in the order of the calls and no two to the same call;
and every chunk that completes the response that grants a relay is followed by the end of its
connection and the report. -/
theorem exchanges_pair (config : Config) (policy : Policy) {o : Observer} (ho : o.IsSteady config)
    (depth : Nat) {steps : List Step}
    (hlawful : (fresh config true policy).IsLawful o depth steps) :
    let m := fresh config true policy
    let story := m.record o depth steps
    let roles := (run o depth m steps).host.roles
    let limit := some config.maxResponseSize
    (∀ later k bytes past, story = later ++ .write k bytes :: past → roles[k]? = some .command →
      IsCommandWrite k bytes past) ∧
    (∀ later k past, story = later ++ past → roles[k]? = some .command →
      (writes k past).length ≤ 1) ∧
    (∃ cause : Nat → Nat, StrictMonoOn cause { i | IsReportAt story i } ∧
      ∀ later status s past, story = later ++ .heard (.messageSent status) s :: past →
        status = 0 ∧ IsDueTo limit past (cause past.length)) ∧
    ∀ later k chunk past, story = later ++ .event k (.received chunk) :: past →
      Completes limit k chunk past →
      ∃ rest s, later = rest ++ [.heard (.messageSent 0) s, .close k] := by
  intro m story roles limit
  have hready := ready_record config policy ho hlawful
  have horder : IsInOrder roles limit story := hready.kept.order
  have hsettled : IsSettled limit story := hready.kept.settled
  have hdue {later past : List Entry} {status : Int} {s : Session}
      (heq : story = later ++ .heard (.messageSent status) s :: past) :
      status = 0 ∧ IsDueTo limit past (causeAt (story.drop (story.length - past.length))) := by
    have hdrop : story.drop (story.length - past.length) = past := by
      have hsplit : story = (later ++ [.heard (.messageSent status) s]) ++ past := by
        rw [heq, ← List.append_cons]
      rw [hsplit, List.length_append, Nat.add_sub_cancel, List.drop_left]
    rw [hdrop]
    have hreport := (horder.inPlace heq).report status s rfl
    rw [heq] at horder
    exact ⟨hreport.delivered, hreport.isDueTo horder.of_append.2⟩
  refine ⟨?_, ?_, ⟨fun i ↦ causeAt (story.drop (story.length - i)), ?_, fun _ _ _ _ ↦ hdue⟩, ?_⟩
  · intro later k bytes past heq hrole
    rcases (horder.inPlace heq).write k bytes rfl with ⟨-, hwrite⟩ | ⟨hnotify, -⟩
    · exact hwrite
    · cases hrole.symm.trans hnotify
  · intro later k past heq hrole
    rw [heq] at horder
    exact horder.of_append.length_writes_le hrole
  · rintro _ ⟨later, status, s, first, hfirst, rfl⟩ _
      ⟨later', status', s', second, hsecond, rfl⟩ hlt
    have hsuffix : .heard (.messageSent status) s :: first <:+ second :=
      List.suffix_of_suffix_length_le ⟨later, hfirst.symm⟩
        ⟨later' ++ [.heard (.messageSent status') s'], by rw [hsecond, ← List.append_cons]⟩ hlt
    exact Nat.lt_trans (hdue hfirst).2.lt_length ((hdue hsecond).2.lt hsuffix)
  · intro later k chunk past heq hcompletes
    have hevent : ¬ IsSettled limit (.event k (.received chunk) :: past) := fun hnothing ↦ by
      have hnext := (hnothing (.event k .connected)).close k chunk past rfl hcompletes
      cases hnext
    obtain ⟨first, y, rfl, hy⟩ := horder.next hsettled heq hevent
    obtain rfl := hy.heeds.close k chunk past rfl hcompletes
    have hclose : ¬ IsSettled limit (.close k :: .event k (.received chunk) :: past) :=
      fun hnothing ↦ by
        obtain ⟨s, hnext⟩ := (hnothing (.event k .connected)).report k chunk past rfl hcompletes
        cases hnext
    have hstory : story = first ++ .close k :: .event k (.received chunk) :: past := by
      rw [heq, List.append_assoc]
      rfl
    obtain ⟨rest, z, rfl, hz⟩ := horder.next hsettled hstory hclose
    obtain ⟨s, rfl⟩ := hz.heeds.report k chunk past rfl hcompletes
    exact ⟨rest, s, by simp⟩

/-- An observer that relays a payload whenever a relay is over. -/
def insistent : Observer := fun _ e ↦
  if e = .messageSent 0 then [.attempt (.send 9 "more")] else []

/-- A relay is delivered, and the next one, which the observer asks for as it hears of it, as the
session is being left. -/
def deliveredTwice : List Step := [
  .call (.connect (some "10.0.0.5") none none),
  .socket (.newest .command) .connected,
  .socket (.newest .command) (.received (Bytes.ofAscii
    "HTTP/1.1 200 OK\r\nPragma: 7\r\nContent-Length: 6\r\n\r\na,9,1\n")),
  .call (.send 9 "hi"),
  .socket (.newest .command) .connected,
  .socket (.newest .command) (.received (Bytes.ofAscii
    "HTTP/1.1 200 OK\r\nContent-Length: 0\r\n\r\n")),
  .socket (.newest .command) .connected,
  .call .signOut,
  .socket (.newest .command) (.received (Bytes.ofAscii "HTTP/1.1 200 OK\r\nContent-")),
  .socket (.newest .command) (.received (Bytes.ofAscii "Length: 0\r\n\r\n"))]

/-- Both relays are reported as delivered, each for a call of its own. -/
theorem exchanges_pair_deliveredTwice :
    let m := fresh (Config.standard "alice") true {}
    let story := m.record insistent 3 deliveredTwice
    insistent.IsSteady (Config.standard "alice") ∧ m.IsLawful insistent 3 deliveredTwice ∧
      Observer.heard (run insistent 3 m deliveredTwice) =
        [.peerConnected 9 "a", .signedIn, .messageSent 0, .messageSent 0] ∧
      ∃ cause : Nat → Nat, StrictMonoOn cause { i | IsReportAt story i } ∧
        ∀ later status s past, story = later ++ .heard (.messageSent status) s :: past →
          status = 0 ∧ IsDueTo (some (Config.standard "alice").maxResponseSize) past
            (cause past.length) := by
  intro m story
  have hsteady : insistent.IsSteady (Config.standard "alice") := by
    intro m e _ d hd
    rw [insistent] at hd
    split at hd
    · rw [List.mem_singleton.1 hd]
      trivial
    · cases hd
  have hruns : m.IsLawful insistent 3 deliveredTwice ∧
      Observer.heard (run insistent 3 m deliveredTwice) =
        [.peerConnected 9 "a", .signedIn, .messageSent 0, .messageSent 0] := by
    decide +kernel
  have hall := exchanges_pair (Config.standard "alice") {} hsteady 3 hruns.1
  exact ⟨hsteady, hruns.1, hruns.2, hall.2.2.1⟩

end Machine

end Rendezvous

import Rendezvous.Proofs.Host

/-!
# Requests on the command link

The link holds one request at most, and is in one exchange at most. Whatever its owner does with
it, in whatever state its surroundings are each time: a request is written once at most, and none is
that was given up; a request that is refused disturbs no other; and a response goes to the exchange
that was begun last and is not over.
-/

namespace Rendezvous

/-! ### Since -/

section Since

variable {α : Type} {P Q : α → Prop} {past : List α}

/-- Whether something of one kind took place, and only things of another kind have since, the oldest
first. -/
def Since (P Q : α → Prop) (past : List α) : Prop :=
  ∃ earlier a later, past = earlier ++ a :: later ∧ P a ∧ ∀ x ∈ later, Q x

private theorem since_concat {a : α} : Since P Q (past ++ [a]) ↔ P a ∨ Since P Q past ∧ Q a := by
  constructor
  · rintro ⟨earlier, b, later, h, hb, hlater⟩
    rcases List.eq_nil_or_concat later with rfl | ⟨between, c, hconcat⟩
    · obtain ⟨-, heq⟩ := List.append_inj' h rfl
      obtain rfl := List.singleton_inj.1 heq
      exact .inl hb
    · rw [List.concat_eq_append] at hconcat
      subst hconcat
      have hsplit : past ++ [a] = (earlier ++ b :: between) ++ [c] := by simpa using h
      obtain ⟨rfl, heq⟩ := List.append_inj' hsplit rfl
      obtain rfl := List.singleton_inj.1 heq
      obtain ⟨hbetween, ha⟩ := List.forall_mem_append.1 hlater
      exact .inr ⟨⟨earlier, b, between, rfl, hb, hbetween⟩, ha a (List.mem_singleton_self a)⟩
  · rintro (ha | ⟨⟨earlier, b, later, rfl, hb, hlater⟩, ha⟩)
    · exact ⟨past, a, [], rfl, ha, List.forall_mem_nil _⟩
    · refine ⟨earlier, b, later ++ [a], by simp, hb, ?_⟩
      exact List.forall_mem_append.2 ⟨hlater, List.forall_mem_singleton.2 ha⟩

end Since

/-! ### A place for one thing -/

section Place

variable {α β : Type} {put? taken? : α → Option β} {Keeps : α → Prop} {past : List α}
  {place : Option β} {a : α} {b : β}

/-- What is true of a place for one thing after all that took place: the things that were taken from
it, and the one in it, were put there, in this order; and in it is the thing that was put there
last, if only that has taken place since which keeps it. -/
structure Holds (put? taken? : α → Option β) (Keeps : α → Prop) (past : List α)
    (place : Option β) : Prop where
  order : List.Sublist (past.filterMap taken? ++ place.toList) (past.filterMap put?)
  held (b : β) : place = some b ↔ Since (put? · = some b) Keeps past

private theorem Holds.taken (h : Holds put? taken? Keeps past place) :
    List.Sublist (past.filterMap taken?) (past.filterMap put?) :=
  (List.sublist_append_left _ _).trans h.order

/-- A thing is put into the place; what was there before is not kept. -/
theorem Holds.put (h : Holds put? taken? Keeps past place) (hput : put? a = some b)
    (htaken : taken? a = none) (hkeeps : place = none ∨ ¬ Keeps a) :
    Holds put? taken? Keeps (past ++ [a]) (some b) where
  order := by
    simp only [List.filterMap_append, List.filterMap_cons_none htaken,
      List.filterMap_cons_some hput, List.filterMap_nil, List.append_nil]
    exact h.taken.append (.refl [b])
  held c := by
    rw [since_concat, hput, ← h.held]
    constructor
    · exact .inl
    · rintro (heq | ⟨hplace, ha⟩)
      · exact heq
      · rcases hkeeps with hnone | hnot
        · exact absurd (hnone.symm.trans hplace) nofun
        · exact absurd ha hnot

/-- The thing in the place is kept. -/
theorem Holds.keep (h : Holds put? taken? Keeps past place) (hput : put? a = none)
    (htaken : taken? a = none) (hkeeps : Keeps a) :
    Holds put? taken? Keeps (past ++ [a]) place where
  order := by
    simp only [List.filterMap_append, List.filterMap_cons_none htaken,
      List.filterMap_cons_none hput, List.filterMap_nil, List.append_nil]
    exact h.order
  held c := by
    rw [since_concat, hput, ← h.held]
    simp [hkeeps]

/-- The place is emptied, and what is taken, if anything, was there. -/
theorem Holds.empty (h : Holds put? taken? Keeps past place) (hput : put? a = none)
    (htaken : taken? a = none ∨ taken? a = place) (hkeeps : place = none ∨ ¬ Keeps a) :
    Holds put? taken? Keeps (past ++ [a]) none where
  order := by
    rw [List.filterMap_append, List.filterMap_append, List.filterMap_cons_none hput,
      List.filterMap_nil, List.append_nil, Option.toList_none, List.append_nil]
    rcases htaken with hnone | hplace
    · rw [List.filterMap_cons_none hnone, List.filterMap_nil, List.append_nil]
      exact h.taken
    · have hlast : [a].filterMap taken? = place.toList := by
        rw [← hplace]
        cases htaken : taken? a <;> simp [htaken]
      rw [hlast]
      exact h.order
  held c := by
    rw [since_concat, hput, ← h.held]
    constructor
    · nofun
    · rintro (hnone | ⟨hplace, ha⟩)
      · exact absurd hnone nofun
      · rcases hkeeps with hnone | hnot
        · exact absurd (hnone.symm.trans hplace) nofun
        · exact absurd ha hnot

end Place

namespace CommandLink

variable {ν : Type}

/-! ### What waits to be written -/

/-- A start of an idle link leaves no request pending but its own. -/
theorem pending_start_of_idle {l : CommandLink} (hidle : l.exchange = none) (what : Exchange)
    (bytes : Bytes) (address : Address) (h : Host ν) :
    ∀ request ∈ (l.start what bytes address h).2.1.pending, request = bytes := by
  have hnotBusy : ¬ l.isBusy = true := by simp [isBusy, hidle]
  rw [start, if_neg hnotBusy]
  rcases h.connect_cases l.socket address with ⟨hdialled, -⟩ | hrefused
  · simp [hdialled]
  · simp [hrefused]

/-- No request is pending after it was flushed. -/
theorem pending_flush (l : CommandLink) (h : Host ν) : (l.flush h).2.1.pending = none := by
  rw [flush]
  split
  · next hnone => exact hnone
  · next request _ =>
    rcases h.send_cases l.socket request with ⟨hsent, -⟩ | hrefused
    · simp only [hsent]
    · simp only [hrefused]

/-- Receiving leaves the pending request. -/
theorem pending_receive (l : CommandLink) (bytes : Bytes) (h : Host ν) :
    (l.receive bytes h).2.1.pending = l.pending := by
  rw [receive]
  split <;> rfl

/-! ### Uses of a link -/

/-- What an owner does with a link. -/
inductive Use where
  | start (what : Exchange) (bytes : Bytes) (address : Address)
  | flush
  | receive (bytes : Bytes)
  | abort
  | close

/-- What its owner learns. -/
inductive Given where
  | start (granted : Bool)
  | flush (f : Flush)
  | receive (found : Except Wire.FramingError (Option (Option Exchange × Wire.Response)))
  | abort (what : Option Exchange)
  | close

/-- Makes use of a link. -/
def use (l : CommandLink) (h : Host ν) : Use → Given × CommandLink × Host ν
  | .start what bytes address =>
    (.start (l.start what bytes address h).1, (l.start what bytes address h).2)
  | .flush => (.flush (l.flush h).1, (l.flush h).2)
  | .receive bytes => (.receive (l.receive bytes h).1, (l.receive bytes h).2)
  | .abort => (.abort l.abort.1, l.abort.2, h)
  | .close => (.close, l.close h)

/-- A use of a link, and the surroundings as they are then. -/
structure Turn (ν : Type) where
  host : Host ν
  use : Use

/-- A turn with the link that it finds. -/
structure Moment (ν : Type) extends Turn ν where
  link : CommandLink

namespace Moment

/-- What comes of a turn: what the owner learns, the link and its surroundings. -/
def outcome (m : Moment ν) : Given × CommandLink × Host ν := m.link.use m.host m.use

/-- The request that is accepted, and what it is for. -/
def begun? (m : Moment ν) : Option (Exchange × Bytes) :=
  match m.use, m.outcome.1 with
  | .start what bytes _, .start true => some (what, bytes)
  | _, _ => none

/-- The bytes that the socket is asked to take, whether it takes them or not. -/
def offered? (m : Moment ν) : Option Bytes :=
  match m.outcome.1 with
  | .flush .idle => none
  | .flush _ => m.link.pending
  | _ => none

/-- What a response is found for: an exchange, or none. -/
def found? (m : Moment ν) : Option (Option Exchange) :=
  match m.outcome.1 with
  | .receive (.ok (some (what, _))) => some what
  | _ => none

/-- The exchange that a response is found for. -/
def answered? (m : Moment ν) : Option Exchange := m.found?.join

/-- Whether a request that waits to be written goes on waiting: bytes come in, or another request is
refused because an exchange is in flight. -/
def IsQuiet (m : Moment ν) : Prop :=
  match m.use with
  | .receive _ => True
  | .start _ _ _ => m.link.isBusy = true
  | _ => False

/-- Whether the exchange in flight ends: it is given up, or its response is found. -/
def Ends (m : Moment ν) : Prop := m.use = .abort ∨ m.use = .close ∨ m.found?.isSome = true

end Moment

/-- The moments of turns that are taken one after another. -/
def story (l : CommandLink) : List (Turn ν) → List (Moment ν)
  | [] => []
  | t :: rest => ⟨t, l⟩ :: story (l.use t.host t.use).2.1 rest

/-- The link that turns lead to. -/
def reached (l : CommandLink) (turns : List (Turn ν)) : CommandLink :=
  turns.foldl (fun l t ↦ (l.use t.host t.use).2.1) l

/-! ### Starting -/

section Start

variable {l : CommandLink} {h : Host ν}

private theorem start_of_busy (hbusy : l.isBusy = true) (what : Exchange) (bytes : Bytes)
    (address : Address) : l.start what bytes address h = (false, l, h) := by
  rw [start, if_pos hbusy]

private theorem start_of_canDial (hidle : l.isBusy = false) (hdial : h.canDial l.socket = true)
    (what : Exchange) (bytes : Bytes) (address : Address) :
    l.start what bytes address h = (true,
      { l with framer := l.framer.reset, pending := some bytes, exchange := some what },
      (h.setPhase l.socket .connecting).ask (.connect l.socket address)) := by
  have hdialled : h.connect l.socket address =
      (true, (h.setPhase l.socket .connecting).ask (.connect l.socket address)) := if_pos hdial
  simp only [start, hidle, Bool.false_eq_true, if_false, hdialled]

private theorem start_of_not_canDial (hidle : l.isBusy = false) (hdial : h.canDial l.socket = false)
    (what : Exchange) (bytes : Bytes) (address : Address) :
    l.start what bytes address h =
      (false, { l with framer := l.framer.reset, pending := none, exchange := none }, h) := by
  have hrefused : h.connect l.socket address = (false, h) := if_neg (by simp [hdial])
  simp only [start, hidle, Bool.false_eq_true, if_false, hrefused]

end Start

/-! ### What the story says of the link -/

/-- What is true of a link after all that was done with it. -/
structure Accounts (past : List (Moment ν)) (l : CommandLink) : Prop where
  pending : Holds (Option.map Prod.snd ∘ Moment.begun?) Moment.offered? Moment.IsQuiet past
    l.pending
  exchange : Holds (Option.map Prod.fst ∘ Moment.begun?) Moment.answered? (¬ Moment.Ends ·) past
    l.exchange

variable {past : List (Moment ν)} {l : CommandLink}

private theorem Accounts.start (h : Accounts past l) (host : Host ν) (what : Exchange)
    (bytes : Bytes) (address : Address) :
    Accounts (past ++ [⟨⟨host, .start what bytes address⟩, l⟩])
      (l.start what bytes address host).2.1 := by
  cases hbusy : l.isBusy with
  | true =>
    have hstart := start_of_busy (h := host) hbusy what bytes address
    have hquiet : Moment.IsQuiet ⟨⟨host, .start what bytes address⟩, l⟩ := hbusy
    rw [hstart]
    refine ⟨h.pending.keep ?_ ?_ hquiet, h.exchange.keep ?_ ?_ ?_⟩ <;>
      simp [Moment.begun?, Moment.offered?, Moment.answered?, Moment.found?, Moment.Ends,
        Moment.outcome, use, hstart]
  | false =>
    have hidle : l.exchange = none := by simpa [isBusy] using hbusy
    have hnotQuiet : ¬ Moment.IsQuiet ⟨⟨host, .start what bytes address⟩, l⟩ := by
      simp [Moment.IsQuiet, hbusy]
    cases hdial : host.canDial l.socket with
    | true =>
      have hstart := start_of_canDial hbusy hdial what bytes address
      rw [hstart]
      refine ⟨h.pending.put ?_ ?_ (.inr hnotQuiet), h.exchange.put ?_ ?_ (.inl hidle)⟩ <;>
        simp [Moment.begun?, Moment.offered?, Moment.answered?, Moment.found?, Moment.outcome, use,
          hstart]
    | false =>
      have hstart := start_of_not_canDial hbusy hdial what bytes address
      rw [hstart]
      refine ⟨h.pending.empty ?_ ?_ (.inr hnotQuiet), h.exchange.empty ?_ ?_ (.inl hidle)⟩ <;>
        simp [Moment.begun?, Moment.offered?, Moment.answered?, Moment.found?, Moment.outcome, use,
          hstart]

private theorem Accounts.flush (h : Accounts past l) (host : Host ν) :
    Accounts (past ++ [⟨⟨host, .flush⟩, l⟩]) (l.flush host).2.1 := by
  have hexchange : Holds (Option.map Prod.fst ∘ Moment.begun?) Moment.answered? (¬ Moment.Ends ·)
      (past ++ [⟨⟨host, .flush⟩, l⟩]) l.exchange :=
    h.exchange.keep rfl rfl (by simp [Moment.Ends, Moment.found?, Moment.outcome, use])
  refine ⟨?_, (l.flush_frame host).2.1 ▸ hexchange⟩
  rw [pending_flush]
  refine h.pending.empty rfl ?_ (.inr id)
  simp only [Moment.offered?, Moment.outcome, use]
  split
  · exact .inl rfl
  · exact .inr rfl
  · exact .inl rfl

private theorem Accounts.receive (h : Accounts past l) (host : Host ν) (bytes : Bytes) :
    Accounts (past ++ [⟨⟨host, .receive bytes⟩, l⟩]) (l.receive bytes host).2.1 := by
  have hquiet : Moment.IsQuiet ⟨⟨host, .receive bytes⟩, l⟩ := trivial
  have hpending := h.pending.keep rfl rfl hquiet
  refine ⟨(l.pending_receive bytes host).symm ▸ hpending, ?_⟩
  rcases (l.receive_cases bytes host).2 with
    ⟨-, hexchange, hnone⟩ | ⟨-, hexchange, response, hfound⟩
  · rw [hexchange]
    have hnothing : Moment.found? ⟨⟨host, .receive bytes⟩, l⟩ = none := by
      simp only [Moment.found?, Moment.outcome, use]
      split
      · next hfound => exact absurd (Given.receive.inj hfound) (hnone _)
      · rfl
    refine h.exchange.keep rfl (by rw [Moment.answered?, hnothing]; rfl) ?_
    simp [Moment.Ends, hnothing]
  · rw [hexchange]
    have hsome : Moment.found? ⟨⟨host, .receive bytes⟩, l⟩ = some l.exchange := by
      simp only [Moment.found?, Moment.outcome, use, hfound]
    refine h.exchange.empty rfl (.inr (by rw [Moment.answered?, hsome]; rfl)) (.inr ?_)
    simp [Moment.Ends, hsome]

/-- Every use of a link keeps the story true. -/
theorem Accounts.step (h : Accounts past l) (t : Turn ν) :
    Accounts (past ++ [⟨t, l⟩]) (l.use t.host t.use).2.1 := by
  obtain ⟨host, use⟩ := t
  cases use with
  | start what bytes address => exact h.start host what bytes address
  | flush => exact h.flush host
  | receive bytes => exact h.receive host bytes
  | abort =>
    exact ⟨h.pending.empty rfl (.inl rfl) (.inr id),
      h.exchange.empty rfl (.inl rfl) (.inr (not_not_intro (.inl rfl)))⟩
  | close =>
    exact ⟨h.pending.empty rfl (.inl rfl) (.inr id),
      h.exchange.empty rfl (.inl rfl) (.inr (not_not_intro (.inr (.inl rfl))))⟩

private theorem Accounts.run (h : Accounts past l) (turns : List (Turn ν)) :
    Accounts (past ++ l.story turns) (l.reached turns) := by
  induction turns generalizing past l with
  | nil =>
    rw [story, List.append_nil]
    exact h
  | cons t rest ih =>
    have hrest := ih (h.step t)
    rwa [List.append_assoc] at hrest

/-- Whether a request was accepted and has been left alone since. -/
def Waits (past : List (Moment ν)) (bytes : Bytes) : Prop :=
  Since (fun m ↦ m.begun?.map Prod.snd = some bytes) Moment.IsQuiet past

/-- Two requests, of which the second comes too early; the first is written and answered. -/
def hurried : List (Turn Unit) :=
  let closed : Host Unit := { sockets := [{ role := .command }] }
  let connected : Host Unit := { sockets := [{ role := .command, phase := .connected }] }
  [⟨closed, .start .signIn [1] ⟨"10.0.0.5", 8888⟩⟩, ⟨closed, .start .relay [2] ⟨"10.0.0.5", 8888⟩⟩,
    ⟨connected, .flush⟩,
    ⟨connected, .receive (Bytes.ofAscii "HTTP/1.1 200 OK\r\nContent-Length: 0\r\n\r\n")⟩]

end CommandLink

end Rendezvous

import Rendezvous.Link.Command
import Rendezvous.Proofs.Wire.Request

/-!
# What requests do to a host

Every request changes the phase of one socket at most, and adds nothing but requests to the log.
-/

namespace Rendezvous

/-- Whether a request only gives up what was asked for before. -/
def Action.isRelease : Action → Bool
  | .connect _ _ => false
  | .send _ _ => false
  | .close _ => true
  | .lookup _ _ => false
  | .cancelLookup => true
  | .schedule _ _ => false
  | .cancelTimer _ => true

namespace Host

variable {ν : Type}

/-! ### Phases of sockets -/

@[simp] private theorem phaseOf_ask (h : Host ν) (a : Action) (k : Nat) :
    (h.ask a).phaseOf k = h.phaseOf k := rfl

/-- A socket that was not made is closed. -/
theorem phaseOf_eq_closed_of_le {h : Host ν} {k : Nat} (hle : h.sockets.length ≤ k) :
    h.phaseOf k = .closed := by
  simp [phaseOf, hle]

/-- A socket that was never made stays closed whatever is said of it. -/
theorem phaseOf_setPhase_self (h : Host ν) (k : Nat) (p : Channel.Phase) :
    (h.setPhase k p).phaseOf k = if k < h.sockets.length then p else .closed := by
  split
  · next hmade => exact phaseOf_setPhase hmade p
  · next hnot =>
    have hle := Nat.le_of_not_lt hnot
    exact phaseOf_eq_closed_of_le (by simpa [setPhase] using hle)

/-- A socket that is put into the phase it is in. -/
theorem setPhase_phaseOf (h : Host ν) (k : Nat) : h.setPhase k (h.phaseOf k) = h := by
  have hsame : h.sockets.modify k (fun s ↦ { s with phase := h.phaseOf k }) = h.sockets := by
    apply List.ext_getElem?
    intro j
    rw [List.getElem?_modify]
    split
    · next hj =>
      subst hj
      cases hs : h.sockets[k]? with
      | none => rfl
      | some s => simp [phaseOf, hs]
    · simp
  rw [setPhase, hsame]

/-- Setting the phase that a socket is in changes no phase. -/
theorem phaseOf_setPhase_of_phase {h : Host ν} {k : Nat} (j : Nat) :
    (h.setPhase k (h.phaseOf k)).phaseOf j = h.phaseOf j := by
  rw [setPhase_phaseOf]

/-- Setting a socket to closed closes that socket only, whether it was made or not. -/
theorem phaseOf_setPhase_closed (h : Host ν) (k j : Nat) :
    (h.setPhase k .closed).phaseOf j = if k = j then .closed else h.phaseOf j := by
  split
  · next hk =>
    subst hk
    simp [phaseOf_setPhase_self]
  · next hne => exact phaseOf_setPhase_of_ne h hne _

/-- Closing closes one socket. -/
theorem phaseOf_close (h : Host ν) (k j : Nat) :
    (h.close k).phaseOf j = if k = j then .closed else h.phaseOf j :=
  phaseOf_setPhase_closed h k j

/-- A new socket is closed, as it was before it was made. -/
@[simp] theorem phaseOf_makeSocket (h : Host ν) (role : Role) (j : Nat) :
    (h.makeSocket role).2.phaseOf j = h.phaseOf j := by
  rcases Nat.lt_trichotomy j h.sockets.length with hlt | heq | hgt
  · simp [phaseOf, makeSocket, List.getElem?_append_left hlt]
  · subst heq
    simp [phaseOf, makeSocket]
  · have hle : h.sockets.length ≤ j := by omega
    rw [phaseOf_eq_closed_of_le hle]
    exact phaseOf_eq_closed_of_le (by simp [makeSocket]; omega)

/-- A socket is dialled only while it is closed; where it is not dialled, nothing happens. -/
theorem connect_cases (h : Host ν) (k : Nat) (address : Address) :
    (h.connect k address = (true, (h.setPhase k .connecting).ask (.connect k address)) ∧
        h.phaseOf k = .closed ∧ k < h.sockets.length) ∨
      h.connect k address = (false, h) := by
  rw [connect]
  split
  · next hdial =>
    left
    simp only [canDial, Option.any_eq_true, Channel.Phase.canDial, Bool.and_eq_true,
      decide_eq_true_eq] at hdial
    obtain ⟨s, hs, hclosed, -⟩ := hdial
    exact ⟨rfl, by simp [phaseOf, hs, hclosed], (List.getElem?_eq_some_iff.1 hs).1⟩
  · exact .inr rfl

/-- A connection that is refused leaves the host as it was. -/
theorem snd_connect_of_refused (h : Host ν) {k : Nat} {address : Address}
    (hrefused : ¬ (h.connect k address).1 = true) : (h.connect k address).2 = h := by
  rcases h.connect_cases k address with ⟨hdialled, -⟩ | hnot
  · exact absurd (congrArg Prod.fst hdialled) hrefused
  · rw [hnot]

/-- A socket that is dialled is connecting, and the others stay in their phases. -/
theorem phaseOf_connecting {h : Host ν} {k : Nat} (hmade : k < h.sockets.length)
    (address : Address) (j : Nat) :
    ((h.setPhase k .connecting).ask (.connect k address)).phaseOf j =
      if k = j then .connecting else h.phaseOf j := by
  rw [phaseOf_ask]
  split
  · next hk =>
    subst hk
    exact phaseOf_setPhase hmade _
  · next hne => exact phaseOf_setPhase_of_ne h hne _

/-- Bytes are taken only by a connected socket; where they are not, nothing happens. -/
theorem send_cases (h : Host ν) (k : Nat) (bytes : Bytes) :
    (h.send k bytes = (true, h.ask (.send k bytes)) ∧ h.phaseOf k = .connected) ∨
      h.send k bytes = (false, h) := by
  rw [send]
  split
  · next hsend =>
    left
    simp only [canSend, Option.any_eq_true, Channel.Phase.canSend, Bool.and_eq_true,
      decide_eq_true_eq] at hsend
    obtain ⟨s, hs, hconnected, -⟩ := hsend
    exact ⟨rfl, by simp [phaseOf, hs, hconnected]⟩
  · exact .inr rfl

/-! ### Growth of the log -/

/-- Nothing but requests of a kind was added to the log. -/
def AsksOnly (P : Action → Prop) (before after : Host ν) : Prop :=
  ∃ asked : List Action, after.log = asked.map .action ++ before.log ∧ ∀ a ∈ asked, P a

section AsksOnly

variable {P : Action → Prop} {a b c : Host ν}

/-- Where nothing happens nothing is asked for. -/
theorem AsksOnly.refl (h : Host ν) : h.AsksOnly P h := ⟨[], rfl, by simp⟩

/-- Requests of a kind after such requests are of that kind. -/
theorem AsksOnly.trans (hab : a.AsksOnly P b) (hbc : b.AsksOnly P c) : a.AsksOnly P c := by
  obtain ⟨first, hfirst, hall⟩ := hab
  obtain ⟨second, hsecond, hall'⟩ := hbc
  refine ⟨second ++ first, by rw [hsecond, hfirst, List.map_append, List.append_assoc], ?_⟩
  exact List.forall_mem_append.2 ⟨hall', hall⟩

/-- What is true of every line, and of every request of the kind, is true of every line again. -/
theorem AsksOnly.forall_mem {Q : LogEntry ν → Prop} (hab : a.AsksOnly (Q ∘ .action) b)
    (ha : ∀ line ∈ a.log, Q line) : ∀ line ∈ b.log, Q line := by
  obtain ⟨asked, hlog, hall⟩ := hab
  rw [hlog]
  exact List.forall_mem_append.2 ⟨List.forall_mem_map.2 hall, ha⟩

/-- One request of a kind is logged. -/
theorem asksOnly_ask (h : Host ν) {x : Action} (hx : P x) : h.AsksOnly P (h.ask x) :=
  ⟨[x], rfl, List.forall_mem_singleton.2 hx⟩

/-- Closing asks for no more than closing. -/
theorem asksOnly_close (h : Host ν) {k : Nat} (hk : P (.close k)) : h.AsksOnly P (h.close k) :=
  (h.setPhase k .closed).asksOnly_ask hk

/-- Connecting asks for no more than a connection. -/
theorem asksOnly_connect (h : Host ν) {k : Nat} {address : Address}
    (hk : P (.connect k address)) : h.AsksOnly P (h.connect k address).2 := by
  rcases connect_cases h k address with ⟨hdialled, -⟩ | hrefused
  · rw [hdialled]
    exact (h.setPhase k .connecting).asksOnly_ask hk
  · rw [hrefused]
    exact .refl h

/-- Sending asks for no more than bytes to be sent. -/
theorem asksOnly_send (h : Host ν) {k : Nat} {bytes : Bytes} (hk : P (.send k bytes)) :
    h.AsksOnly P (h.send k bytes).2 := by
  rcases send_cases h k bytes with ⟨hsent, -⟩ | hrefused
  · rw [hsent]
    exact h.asksOnly_ask hk
  · rw [hrefused]
    exact .refl h

end AsksOnly

/-- Nothing but requests was added to the log. -/
def Asks (before after : Host ν) : Prop :=
  ∃ asked : List Action, after.log = asked.map .action ++ before.log

/-- Requests of a kind are requests. -/
theorem AsksOnly.asks {P : Action → Prop} {a b : Host ν} (hab : a.AsksOnly P b) : a.Asks b :=
  hab.imp fun _ ↦ And.left

/-- Where nothing happens nothing is logged. -/
theorem Asks.refl (h : Host ν) : h.Asks h := ⟨[], rfl⟩

/-- Requests after requests are requests. -/
theorem Asks.trans {a b c : Host ν} (hab : a.Asks b) (hbc : b.Asks c) : a.Asks c := by
  obtain ⟨first, hfirst⟩ := hab
  obtain ⟨second, hsecond⟩ := hbc
  exact ⟨second ++ first, by rw [hsecond, hfirst, List.map_append, List.append_assoc]⟩

/-- One request is logged. -/
theorem asks_ask (h : Host ν) (a : Action) : h.Asks (h.ask a) := ⟨[a], rfl⟩

/-- Setting a timer leaves nothing but requests in the log. -/
theorem asks_schedule (h : Host ν) (delay : Float) : h.Asks (h.schedule delay).2 :=
  ⟨[.schedule h.timers delay], rfl⟩

/-- Connecting leaves nothing but requests in the log. -/
theorem asks_connect (h : Host ν) (k : Nat) (address : Address) :
    h.Asks (h.connect k address).2 :=
  (h.asksOnly_connect (P := fun _ ↦ True) trivial).asks

/-! ### What is retained -/

/-- The roles that the sockets were made for. -/
def roles (h : Host ν) : List Role := h.sockets.map Socket.role

/-- No socket was made, no timer was set, and the same things are granted. -/
structure Retains (before after : Host ν) : Prop where
  policy : after.policy = before.policy
  roles : after.roles = before.roles
  timers : after.timers = before.timers

/-- Every socket has a role. -/
theorem length_roles (h : Host ν) : h.roles.length = h.sockets.length := List.length_map _

/-- A socket by its role and its phase. -/
theorem getElem?_of_role {h : Host ν} {k : Nat} {role : Role} (hrole : h.roles[k]? = some role) :
    h.sockets[k]? = some ⟨role, h.phaseOf k⟩ := by
  rw [roles, List.getElem?_map] at hrole
  obtain ⟨s, hs, rfl⟩ := Option.map_eq_some_iff.1 hrole
  rw [phaseOf, hs]
  rfl

/-- What has a role was made. -/
theorem lt_of_role {h : Host ν} {k : Nat} {role : Role} (hrole : h.roles[k]? = some role) :
    k < h.sockets.length :=
  (List.getElem?_eq_some_iff.1 (getElem?_of_role hrole)).1

/-- There are as many sockets as before. -/
theorem Retains.length {before after : Host ν} (h : before.Retains after) :
    after.sockets.length = before.sockets.length := by
  rw [← length_roles, h.roles, length_roles]

/-- Where nothing happens everything is retained. -/
theorem Retains.refl (h : Host ν) : h.Retains h := ⟨rfl, rfl, rfl⟩

/-- What is retained twice is retained. -/
theorem Retains.trans {a b c : Host ν} (hab : a.Retains b) (hbc : b.Retains c) : a.Retains c :=
  ⟨hbc.policy.trans hab.policy, hbc.roles.trans hab.roles, hbc.timers.trans hab.timers⟩

/-- Asking retains everything. -/
theorem retains_ask (h : Host ν) (a : Action) : h.Retains (h.ask a) := ⟨rfl, rfl, rfl⟩

/-- A change of phase retains everything. -/
theorem retains_setPhase (h : Host ν) (k : Nat) (p : Channel.Phase) :
    h.Retains (h.setPhase k p) := by
  have hroles : (h.setPhase k p).roles = h.roles := by
    apply List.ext_getElem?
    intro j
    simp only [Host.roles, setPhase, List.getElem?_map, List.getElem?_modify]
    cases h.sockets[j]? with
    | none => rfl
    | some s => by_cases hk : k = j <;> simp [hk]
  exact ⟨rfl, hroles, rfl⟩

/-- Closing retains everything. -/
theorem retains_close (h : Host ν) (k : Nat) : h.Retains (h.close k) :=
  (h.retains_setPhase k .closed).trans (retains_ask _ _)

/-- Connecting retains everything. -/
theorem retains_connect (h : Host ν) (k : Nat) (address : Address) :
    h.Retains (h.connect k address).2 := by
  rcases connect_cases h k address with ⟨hdialled, -⟩ | hrefused
  · rw [hdialled]
    exact (h.retains_setPhase k .connecting).trans (retains_ask _ _)
  · rw [hrefused]
    exact .refl h

private theorem retains_send (h : Host ν) (k : Nat) (bytes : Bytes) :
    h.Retains (h.send k bytes).2 := by
  rcases send_cases h k bytes with ⟨hsent, -⟩ | hrefused
  · rw [hsent]
    exact h.retains_ask _
  · rw [hrefused]
    exact .refl h

/-- The role of a new socket comes last. -/
theorem roles_makeSocket (h : Host ν) (role : Role) :
    (h.makeSocket role).2.roles = h.roles ++ [role] := by
  simp [Host.roles, makeSocket]

end Host

/-! ### What links ask for -/

section Links

variable {ν : Type} {P : Action → Prop}

/-- Starting an exchange asks for nothing but the socket to be connected. -/
theorem CommandLink.asksOnly_start (l : CommandLink) (what : Exchange) (bytes : Bytes)
    {address : Address} (h : Host ν) (hdial : P (.connect l.socket address)) :
    h.AsksOnly P (l.start what bytes address h).2.2 := by
  rw [start]
  split
  · exact .refl h
  · have hasks := h.asksOnly_connect hdial
    rcases hconnect : h.connect l.socket address with ⟨_ | _, after⟩ <;>
      rw [hconnect] at hasks <;> simpa [hconnect] using hasks

/-- Flushing asks for nothing but the pending request to be sent. -/
theorem CommandLink.asksOnly_flush (l : CommandLink) (h : Host ν)
    (hsend : ∀ bytes ∈ l.pending, P (.send l.socket bytes)) :
    h.AsksOnly P (l.flush h).2.2 := by
  rw [flush]
  split
  · exact .refl h
  · next bytes hpending =>
    have hasks := h.asksOnly_send (hsend bytes hpending)
    rcases hsend : h.send l.socket bytes with ⟨_ | _, after⟩ <;>
      rw [hsend] at hasks <;> simpa [hsend] using hasks

/-- Receiving asks for nothing but the socket to be closed. -/
theorem CommandLink.asksOnly_receive (l : CommandLink) (bytes : Bytes) (h : Host ν)
    (hclose : P (.close l.socket)) : h.AsksOnly P (l.receive bytes h).2.2 := by
  rw [receive]
  split
  · exact .refl h
  · exact .refl h
  · exact h.asksOnly_close hclose

/-- Issuing a wait asks for nothing but its request to be sent. -/
theorem NotifyLink.asksOnly_issueWait (l : NotifyLink) (id : Int) (h : Host ν)
    (hsend : ∀ request, waitBytes id = .ok request → P (.send l.socket request)) :
    h.AsksOnly P (l.issueWait id h).2.2 := by
  rw [issueWait]
  split
  · exact .refl h
  · next request hrequest => exact h.asksOnly_send (hsend request hrequest)

/-- Rearming asks for a connection or for the request of a wait to be sent. -/
theorem NotifyLink.asksOnly_rearm (l : NotifyLink) (id : Int) {address : Address} (h : Host ν)
    (hdial : P (.connect l.socket address))
    (hsend : ∀ request, waitBytes id = .ok request → P (.send l.socket request)) :
    h.AsksOnly P (l.rearm id address h).2.2 := by
  rw [rearm]
  split
  · exact h.asksOnly_connect hdial
  · exact l.asksOnly_issueWait id h hsend

/-- Receiving asks for nothing but the socket to be closed. -/
theorem NotifyLink.asksOnly_receive (l : NotifyLink) (bytes : Bytes) (h : Host ν)
    (hclose : P (.close l.socket)) : h.AsksOnly P (l.receive bytes h).2.2.2 := by
  rw [receive]
  simp only
  split
  · exact h.asksOnly_close hclose
  · exact .refl h

/-- Starting an exchange leaves nothing but requests in the log. -/
theorem CommandLink.asks_start (l : CommandLink) (what : Exchange) (bytes : Bytes)
    (address : Address) (h : Host ν) : h.Asks (l.start what bytes address h).2.2 :=
  (l.asksOnly_start (P := fun _ ↦ True) what bytes h trivial).asks

/-- Flushing leaves nothing but requests in the log. -/
theorem CommandLink.asks_flush (l : CommandLink) (h : Host ν) : h.Asks (l.flush h).2.2 :=
  (l.asksOnly_flush (P := fun _ ↦ True) h fun _ _ ↦ trivial).asks

/-- Receiving leaves nothing but requests in the log. -/
theorem CommandLink.asks_receive (l : CommandLink) (bytes : Bytes) (h : Host ν) :
    h.Asks (l.receive bytes h).2.2 :=
  (l.asksOnly_receive (P := fun _ ↦ True) bytes h trivial).asks

/-- Issuing a wait leaves nothing but requests in the log. -/
theorem NotifyLink.asks_issueWait (l : NotifyLink) (id : Int) (h : Host ν) :
    h.Asks (l.issueWait id h).2.2 :=
  (l.asksOnly_issueWait (P := fun _ ↦ True) id h fun _ _ ↦ trivial).asks

/-- Rearming leaves nothing but requests in the log. -/
theorem NotifyLink.asks_rearm (l : NotifyLink) (id : Int) (address : Address) (h : Host ν) :
    h.Asks (l.rearm id address h).2.2 :=
  (l.asksOnly_rearm (P := fun _ ↦ True) id h trivial fun _ _ ↦ trivial).asks

/-- Receiving leaves nothing but requests in the log. -/
theorem NotifyLink.asks_receive (l : NotifyLink) (bytes : Bytes) (h : Host ν) :
    h.Asks (l.receive bytes h).2.2.2 :=
  (l.asksOnly_receive (P := fun _ ↦ True) bytes h trivial).asks

end Links

/-! ### What links leave as it was -/

/-- A command link over the same socket, and a host that retains everything. -/
structure CommandLink.Remains {ν : Type} (before after : CommandLink × Host ν) : Prop where
  socket : after.1.socket = before.1.socket
  host : before.2.Retains after.2

/-- A notify link over the same socket with the same limit, and a host that retains everything. -/
structure NotifyLink.Remains {ν : Type} (before after : NotifyLink × Host ν) : Prop where
  socket : after.1.socket = before.1.socket
  limit : after.1.framer.limit = before.1.framer.limit
  host : before.2.Retains after.2

/-- Starting keeps the link over its socket, and the other sockets in their phases. -/
theorem CommandLink.remains_start {ν : Type} (l : CommandLink) (what : Exchange) (bytes : Bytes)
    (address : Address) (h : Host ν) :
    CommandLink.Remains (l, h) (l.start what bytes address h).2 := by
  rw [start]
  split
  · exact ⟨rfl, .refl h⟩
  · have hretains := h.retains_connect l.socket address
    rcases hconnect : h.connect l.socket address with ⟨_ | _, after⟩ <;>
      simp only [hconnect] at hretains ⊢ <;> exact ⟨rfl, hretains⟩

/-- Flushing keeps the link over its socket, and the other sockets in their phases. -/
theorem CommandLink.remains_flush {ν : Type} (l : CommandLink) (h : Host ν) :
    CommandLink.Remains (l, h) (l.flush h).2 := by
  rw [flush]
  split
  · exact ⟨rfl, .refl h⟩
  · next bytes _ =>
    have hretains := h.retains_send l.socket bytes
    rcases hsend : h.send l.socket bytes with ⟨_ | _, after⟩ <;>
      simp only [hsend] at hretains ⊢ <;> exact ⟨rfl, hretains⟩

/-- Receiving keeps the link over its socket, and the other sockets in their phases. -/
theorem CommandLink.remains_receive {ν : Type} (l : CommandLink) (bytes : Bytes) (h : Host ν) :
    CommandLink.Remains (l, h) (l.receive bytes h).2 := by
  rw [receive]
  split
  · exact ⟨rfl, .refl h⟩
  · exact ⟨rfl, .refl h⟩
  · exact ⟨rfl, h.retains_close l.socket⟩

/-- Issuing a wait keeps the link over its socket, and the other sockets in their phases. -/
theorem NotifyLink.remains_issueWait {ν : Type} (l : NotifyLink) (id : Int) (h : Host ν) :
    NotifyLink.Remains (l, h) (l.issueWait id h).2 := by
  rw [issueWait]
  split
  · exact ⟨rfl, rfl, .refl h⟩
  · next request _ => exact ⟨rfl, rfl, h.retains_send l.socket request⟩

/-- Rearming keeps the link over its socket, and the other sockets in their phases. -/
theorem NotifyLink.remains_rearm {ν : Type} (l : NotifyLink) (id : Int) (address : Address)
    (h : Host ν) : NotifyLink.Remains (l, h) (l.rearm id address h).2 := by
  rw [rearm]
  split
  · exact ⟨rfl, rfl, h.retains_connect l.socket address⟩
  · exact l.remains_issueWait id h

/-- The limit of a framer stays when it is drained. -/
theorem NotifyLink.limit_drain (f : Wire.Framer) : (NotifyLink.drain f).2.2.limit = f.limit := by
  fun_induction NotifyLink.drain f with
  | case1 => rfl
  | case2 => rfl
  | case3 => rfl
  | case4 f response rest found hopen responses outcome left hdrain ih => rwa [hdrain] at ih

/-- Receiving keeps the link over its socket, and the other sockets in their phases. -/
theorem NotifyLink.remains_receive {ν : Type} (l : NotifyLink) (bytes : Bytes) (h : Host ν) :
    NotifyLink.Remains (l, h) (l.receive bytes h).2.2 := by
  refine ⟨rfl, NotifyLink.limit_drain _, ?_⟩
  simp only [receive]
  split
  · exact h.retains_close l.socket
  · exact .refl h

/-- What was started is in flight. -/
theorem CommandLink.exchange_start {ν : Type} (l : CommandLink) {what : Exchange} {bytes : Bytes}
    {address : Address} {h : Host ν} (hsent : (l.start what bytes address h).1 = true) :
    (l.start what bytes address h).2.1.exchange = some what := by
  rw [start] at hsent ⊢
  by_cases hbusy : l.isBusy = true
  · rw [if_pos hbusy] at hsent
    cases hsent
  · rw [if_neg hbusy] at hsent ⊢
    rcases h.connect_cases l.socket address with ⟨hdialled, -⟩ | hrefused
    · simp only [hdialled]
    · simp only [hrefused] at hsent
      cases hsent

/-- Whatever comes of starting over an idle link, no other exchange is in flight. -/
theorem CommandLink.exchange_start_of_idle {ν : Type} {l : CommandLink} (hidle : l.exchange = none)
    (what : Exchange) (bytes : Bytes) (address : Address) (h : Host ν) :
    (l.start what bytes address h).2.1.exchange = some what ∨
      (l.start what bytes address h).2.1.exchange = none := by
  by_cases hsent : (l.start what bytes address h).1 = true
  · exact .inl (l.exchange_start hsent)
  · right
    have hnotBusy : ¬ l.isBusy = true := by simp [isBusy, hidle]
    rw [start, if_neg hnotBusy] at hsent ⊢
    rcases h.connect_cases l.socket address with ⟨hdialled, -⟩ | hrefused
    · simp [hdialled] at hsent
    · simp only [hrefused]

/-- Writing keeps the exchange in flight, and opens and closes nothing. -/
theorem CommandLink.flush_frame {ν : Type} (l : CommandLink) (h : Host ν) :
    (l.flush h).2.1.socket = l.socket ∧ (l.flush h).2.1.exchange = l.exchange ∧
      ∀ k, (l.flush h).2.2.phaseOf k = h.phaseOf k := by
  rw [flush]
  split
  · exact ⟨rfl, rfl, fun _ ↦ rfl⟩
  · next bytes _ =>
    rcases h.send_cases l.socket bytes with ⟨hsent, -⟩ | hrefused
    · simp only [hsent]
      exact ⟨trivial, trivial, fun _ ↦ rfl⟩
    · simp only [hrefused]
      exact ⟨trivial, trivial, fun _ ↦ trivial⟩

/-- Bytes either leave the exchange in flight and the sockets as they are, or end the exchange and
close the socket. -/
theorem CommandLink.receive_cases {ν : Type} (l : CommandLink) (bytes : Bytes) (h : Host ν) :
    (l.receive bytes h).2.1.socket = l.socket ∧
      (((l.receive bytes h).2.2 = h ∧ (l.receive bytes h).2.1.exchange = l.exchange ∧
          ∀ found, (l.receive bytes h).1 ≠ .ok (some found)) ∨
        ((l.receive bytes h).2.2 = h.close l.socket ∧ (l.receive bytes h).2.1.exchange = none ∧
          ∃ response, (l.receive bytes h).1 = .ok (some (l.exchange, response)))) := by
  rw [receive]
  split
  · exact ⟨rfl, .inl ⟨rfl, rfl, by simp⟩⟩
  · exact ⟨rfl, .inl ⟨rfl, rfl, by simp⟩⟩
  · exact ⟨rfl, .inr ⟨rfl, rfl, _, rfl⟩⟩

/-- A response that is found was framed from the bytes. -/
theorem CommandLink.poll_of_receive {ν : Type} {l : CommandLink} {bytes : Bytes} {h : Host ν}
    {what : Option Exchange} {response : Wire.Response}
    (hfound : (l.receive bytes h).1 = .ok (some (what, response))) :
    (l.framer.feed bytes).poll.1 = .ok (some response) := by
  rw [receive] at hfound
  split at hfound
  · cases hfound
  · cases hfound
  · next hpoll =>
    cases hfound
    rw [hpoll]

/-- A wait that can be written opens and closes nothing. -/
theorem NotifyLink.issueWait_frame {ν : Type} (l : NotifyLink) {id : Int}
    (hid : Numeral.IsWritable id) (h : Host ν) :
    (∃ sent, (l.issueWait id h).1 = .ok sent) ∧ (l.issueWait id h).2.1.socket = l.socket ∧
      ∀ k, (l.issueWait id h).2.2.phaseOf k = h.phaseOf k := by
  obtain ⟨request, hrequest⟩ := NotifyLink.exists_waitBytes hid
  rw [issueWait, hrequest]
  rcases h.send_cases l.socket request with ⟨hsent, -⟩ | hrefused
  · simp only [hsent]
    exact ⟨⟨true, rfl⟩, trivial, fun _ ↦ rfl⟩
  · simp only [hrefused]
    exact ⟨⟨false, rfl⟩, trivial, fun _ ↦ trivial⟩

/-- On an open connection that takes bytes, the next wait is written. -/
theorem NotifyLink.rearm_of_open {ν : Type} (l : NotifyLink) {id : Int}
    (hid : Numeral.IsWritable id) (address : Address) {h : Host ν}
    (hopen : h.isClosed l.socket = false) (hcan : h.canSend l.socket = true) :
    ∃ request, l.rearm id address h =
      (.ok true, { l with waiting := true }, h.ask (.send l.socket request)) := by
  obtain ⟨request, hrequest⟩ := NotifyLink.exists_waitBytes hid
  refine ⟨request, ?_⟩
  rw [rearm, hopen, if_neg Bool.false_ne_true, issueWait, hrequest]
  simp only [Host.send, if_pos hcan]

/-- Over a closed socket, rearming dials. -/
theorem NotifyLink.rearm_of_closed {ν : Type} (l : NotifyLink) (id : Int) (address : Address)
    {h : Host ν} (hclosed : h.isClosed l.socket = true) : l.rearm id address h =
      (.ok (h.connect l.socket address).1, { l with waiting := false },
        (h.connect l.socket address).2) := by
  rw [rearm, if_pos hclosed]

/-- The next wait is over the same socket, which is open if the wait is in place. -/
theorem NotifyLink.rearm_frame {ν : Type} (l : NotifyLink) {id : Int}
    (hid : Numeral.IsWritable id) (address : Address) (h : Host ν) :
    (∃ sent, (l.rearm id address h).1 = .ok sent ∧
        (sent = true → (l.rearm id address h).2.2.phaseOf l.socket ≠ .closed)) ∧
      (l.rearm id address h).2.1.socket = l.socket ∧
      ∀ k, k ≠ l.socket → (l.rearm id address h).2.2.phaseOf k = h.phaseOf k := by
  rw [rearm]
  split
  · rcases h.connect_cases l.socket address with ⟨hdialled, -, hmade⟩ | hrefused
    · simp only [hdialled, Host.phaseOf_connecting hmade]
      refine ⟨⟨true, rfl, ?_⟩, trivial, fun k hk ↦ if_neg hk.symm⟩
      intro _
      rw [if_pos trivial]
      decide
    · simp only [hrefused]
      exact ⟨⟨false, rfl, by simp⟩, trivial, fun _ _ ↦ trivial⟩
  · next hopen =>
    obtain ⟨⟨sent, hsent⟩, hsocket, hphase⟩ := l.issueWait_frame hid h
    refine ⟨⟨sent, hsent, ?_⟩, hsocket, fun k _ ↦ hphase k⟩
    intro _
    rw [hphase]
    simpa [Host.isClosed] using hopen

/-- A response that announces a close is there to be handed over. -/
theorem NotifyLink.ne_nil_of_drain {f : Wire.Framer} (h : (NotifyLink.drain f).2.1 = .closing) :
    (NotifyLink.drain f).1 ≠ [] := by
  rw [drain] at h ⊢
  split at h
  · cases h
  · cases h
  · split <;> simp

/-- Received bytes leave the other sockets as they are, and the own one too unless a response
announces a close. -/
theorem NotifyLink.receive_frame {ν : Type} (l : NotifyLink) (bytes : Bytes) (h : Host ν) :
    (l.receive bytes h).2.2.1.socket = l.socket ∧
      (∀ k, k ≠ l.socket → (l.receive bytes h).2.2.2.phaseOf k = h.phaseOf k) ∧
      ((l.receive bytes h).1 = [] → (l.receive bytes h).2.2.2 = h) := by
  simp only [receive]
  refine ⟨trivial, ?_, ?_⟩
  · intro k hk
    split
    · rw [Host.phaseOf_close, if_neg hk.symm]
    · rfl
  · intro hnil
    exact if_neg fun hclosing ↦ ne_nil_of_drain hclosing hnil

end Rendezvous

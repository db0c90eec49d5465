import Rendezvous.Link.Notify
import Rendezvous.Proofs.Numeral

/-!
# Requests that can be written

The head of a request is ASCII text whatever the name or the payload, so the only requests that
have no bytes are one with an id that cannot be written, and one under a name that is no string.
-/

namespace Rendezvous

open Text Numeral

namespace Text.Latin1

/-- The bytes of text with no character outside Latin-1. -/
theorem encode?_of_lt {text : List Char} (h : ∀ c ∈ text, c.toNat < 256) :
    encode? text = some (text.map fun c ↦ UInt8.ofNat c.toNat) := by
  induction text with
  | nil => rfl
  | cons c rest ih =>
    have hrest := ih fun x hx ↦ h x (List.mem_cons_of_mem _ hx)
    have hc : byteOf? c = some (UInt8.ofNat c.toNat) := if_pos (h c List.mem_cons_self)
    rw [encode?] at hrest ⊢
    simp [List.mapM_cons, hc, hrest]

end Text.Latin1

namespace Wire.Request

/-- Whether every character of a text is in Latin-1. -/
def IsLatin (text : String) : Prop := ∀ c ∈ text.toList, c.toNat < 256

instance (text : String) : Decidable (IsLatin text) := List.decidableBAll _ text.toList

/-- Latin-1 texts side by side are Latin-1. -/
theorem IsLatin.append {a b : String} (ha : IsLatin a) (hb : IsLatin b) : IsLatin (a ++ b) := by
  intro c hc
  rw [String.toList_append, List.mem_append] at hc
  exact hc.elim (ha c) (hb c)

private theorem toNat_lt_of_isDigit {c : Char} (h : c.isDigit) : c.toNat < 256 :=
  Nat.lt_of_le_of_lt (Char.isDigit_iff_toNat.1 h).2 (by decide)

/-- An integer is written in Latin-1. -/
theorem isLatin_toString (n : Int) : IsLatin (toString n) := by
  intro c hc
  rcases mem_toString hc with rfl | hdigit
  · decide
  · exact toNat_lt_of_isDigit hdigit

private theorem isLatin_repr (n : Nat) : IsLatin n.repr := by
  intro c hc
  rw [Nat.toList_repr] at hc
  exact toNat_lt_of_isDigit (Nat.isDigit_of_mem_toDigits (by decide) (by decide) hc)

/-- Every byte is a Latin-1 character. -/
theorem isLatin_decode (bytes : Bytes) : IsLatin (String.ofList (Latin1.decode bytes)) := by
  intro c hc
  rw [String.toList_ofList, Latin1.decode, List.mem_map] at hc
  obtain ⟨b, -, rfl⟩ := hc
  rw [Latin1.toNat_charOf]
  exact b.toNat_lt

/-- The bytes of a request of Latin-1 text. -/
theorem encode_of_isLatin {r : Request} (hmethod : IsLatin r.method) (htarget : IsLatin r.target)
    (hheaders : ∀ f ∈ r.sentHeaders, IsLatin f.1 ∧ IsLatin f.2) :
    r.encode = .ok (r.head.map (fun c ↦ UInt8.ofNat c.toNat) ++ r.body) := by
  have hline : IsLatin r.line := by
    have hspace : IsLatin " " := by decide
    have hversion : IsLatin version := by decide
    exact ((hmethod.append hspace).append htarget).append hspace |>.append hversion
  have hlines : ∀ l ∈ r.line :: r.sentHeaders.map (fun f ↦ f.1 ++ ": " ++ f.2), IsLatin l := by
    intro l hl
    rcases List.mem_cons.1 hl with rfl | hl
    · exact hline
    · obtain ⟨f, hf, rfl⟩ := List.mem_map.1 hl
      have hcolon : IsLatin ": " := by decide
      exact ((hheaders f hf).1.append hcolon).append (hheaders f hf).2
  have hend : ∀ c ∈ ['\r', '\n'], c.toNat < 256 :=
    List.forall_mem_cons.2 ⟨by decide, List.forall_mem_singleton.2 (by decide)⟩
  have hhead : ∀ c ∈ r.head, c.toNat < 256 := by
    intro c hc
    rcases List.mem_append.1 hc with hc | hc
    · obtain ⟨l, hl, hc⟩ := List.mem_flatMap.1 hc
      rcases List.mem_append.1 hc with hc | hc
      · exact hlines l hl c hc
      · exact hend c hc
    · exact hend c hc
  rw [encode, Latin1.encode?_of_lt hhead]

private theorem exists_encode {r : Request} (hmethod : IsLatin r.method)
    (htarget : IsLatin r.target) (hheaders : ∀ f ∈ r.sentHeaders, IsLatin f.1 ∧ IsLatin f.2) :
    ∃ bytes, r.encode = .ok bytes := ⟨_, encode_of_isLatin hmethod htarget hheaders⟩

/-- An id that can be written is written in decimal. -/
theorem idText_of_isWritable {id : Int} (h : IsWritable id) : idText id = .ok (toString id) := by
  rw [idText, integerText?_of_isWritable h]

/-- An id with too many digits is an error. -/
theorem idText_of_not_isWritable {id : Int} (h : ¬ IsWritable id) :
    idText id = .error .idTooLong := by
  rw [IsWritable, Option.not_isSome_iff_eq_none] at h
  rw [idText, h]

/-- The method of most requests is Latin-1. -/
theorem isLatin_get : IsLatin "GET" := by decide

/-- Signing in can be written under every name. -/
theorem exists_encode_signIn (name : String) : ∃ bytes, (signIn name).encode = .ok bytes := by
  have htarget : IsLatin (signIn name).target :=
    IsLatin.append (by decide) (isLatin_decode _)
  exact exists_encode isLatin_get htarget (by simp [signIn, sentHeaders])

private theorem plainText_of_string? {t : Raw} {s : String} (h : t.string? = some s) :
    plainText t = .ok s := by
  rw [plainText, h]

private theorem signInAs_of_string? {name : Raw} {s : String} (h : name.string? = some s) :
    signInAs name = .ok (signIn s) := by
  rw [signInAs, plainText_of_string? h]
  rfl

/-- The payload of a text that is a string is its UTF-8. -/
theorem payloadOf_of_string? {t : Raw} {s : String} (h : t.string? = some s) :
    payloadOf t = .ok (Utf8.encode s.toList) := by
  rw [payloadOf, plainText_of_string? h]
  rfl

/-- The payload of a string is its UTF-8. -/
@[simp] theorem payloadOf_ofString (s : String) :
    payloadOf (.ofString s) = .ok (Utf8.encode s.toList) :=
  payloadOf_of_string? (Raw.string?_ofString s)

/-- Signing in can be written under every name that is a string. -/
theorem exists_encode_signInAs {name : Raw} (h : name.string?.isSome) :
    ∃ bytes, (signInAs name >>= encode) = .ok bytes := by
  obtain ⟨s, hs⟩ := Option.isSome_iff_exists.1 h
  simp only [signInAs_of_string? hs, bind, Except.bind]
  exact exists_encode_signIn s

/-- A name under which signing in can be written is a string. -/
theorem exists_string?_of_signInAs {name : Raw} {bytes : Bytes}
    (h : (signInAs name >>= encode) = .ok bytes) :
    ∃ s, name.string? = some s ∧ (signIn s).encode = .ok bytes := by
  cases hs : name.string? with
  | none =>
    rw [signInAs, plainText, hs] at h
    cases h
  | some s =>
    simp only [signInAs_of_string? hs, bind, Except.bind] at h
    exact ⟨s, rfl, h⟩

/-- What is written of a value that may be missing is written of one that is there. -/
theorem exists_of_bind_eq_ok {α β : Type} {x : Except RequestError α}
    {f : α → Except RequestError β} {b : β} (h : (x >>= f) = .ok b) :
    ∃ a, x = .ok a ∧ f a = .ok b := by
  cases x with
  | error e => cases h
  | ok a => exact ⟨a, rfl, h⟩

/-- The wait of an id that can be written. -/
theorem wait_of_isWritable {id : Int} (h : IsWritable id) :
    wait id = .ok { method := "GET", target := "/wait?peer_id=" ++ toString id } := by
  rw [wait, idText_of_isWritable h]
  rfl

/-- The sign-out of an id that can be written. -/
theorem signOut_of_isWritable {id : Int} (h : IsWritable id) :
    signOut id = .ok { method := "GET", target := "/sign_out?peer_id=" ++ toString id } := by
  rw [signOut, idText_of_isWritable h]
  rfl

/-- Signing out can be written with every id that can. -/
theorem exists_encode_signOut {id : Int} (h : IsWritable id) :
    ∃ bytes, (signOut id >>= encode) = .ok bytes := by
  have htarget : IsLatin ("/sign_out?peer_id=" ++ toString id) :=
    IsLatin.append (by decide) (isLatin_toString id)
  simp only [signOut_of_isWritable h, bind, Except.bind]
  exact exists_encode isLatin_get htarget (by simp [sentHeaders])

/-- The relay to a peer, where both ids can be written. -/
theorem message_of_isWritable {id peer : Int} (h : IsWritable id) (hpeer : IsWritable peer)
    (payload : Bytes) : message id peer payload = .ok {
      method := "POST"
      target := "/message?peer_id=" ++ toString id ++ "&to=" ++ toString peer
      headers := [("Content-Length", payload.length.repr), ("Content-Type", "text/plain")]
      body := payload } := by
  rw [message, idText_of_isWritable h, idText_of_isWritable hpeer]
  rfl

/-- A relay can be written between ids that can. -/
theorem exists_encode_message {id peer : Int} (h : IsWritable id) (hpeer : IsWritable peer)
    (payload : Bytes) : ∃ bytes, (message id peer payload >>= encode) = .ok bytes := by
  have hto : IsLatin "&to=" := by decide
  have htarget : IsLatin ("/message?peer_id=" ++ toString id ++ "&to=" ++ toString peer) :=
    ((IsLatin.append (by decide) (isLatin_toString id)).append hto).append
      (isLatin_toString peer)
  have hlength : IsLatin "Content-Length" := by decide
  have htype : IsLatin "Content-Type" ∧ IsLatin "text/plain" := by decide
  have hpost : IsLatin "POST" := by decide
  simp only [message_of_isWritable h hpeer, bind, Except.bind]
  refine exists_encode hpost htarget ?_
  rw [sentHeaders, List.any_cons, decide_eq_true rfl, Bool.true_or, Bool.or_true, if_pos rfl]
  simp only [List.forall_mem_cons]
  exact ⟨⟨hlength, isLatin_repr payload.length⟩, htype, by simp⟩

end Wire.Request

/-- An id that a response gives can be written again. -/
theorem Wire.Response.isWritable_of_peerId? {r : Wire.Response} {id : Int}
    (h : r.peerId? = some id) : Numeral.IsWritable id := by
  obtain ⟨value, -, hvalue⟩ := Option.bind_eq_some_iff.1 h
  exact Numeral.isWritable_of_integer? hvalue

/-- A wait can be written with every id that can. -/
theorem NotifyLink.exists_waitBytes {id : Int} (h : IsWritable id) :
    ∃ bytes, NotifyLink.waitBytes id = .ok bytes := by
  have htarget : Wire.Request.IsLatin ("/wait?peer_id=" ++ toString id) :=
    Wire.Request.IsLatin.append (by decide) (Wire.Request.isLatin_toString id)
  simp only [NotifyLink.waitBytes, Wire.Request.wait_of_isWritable h, bind, Except.bind]
  exact Wire.Request.exists_encode Wire.Request.isLatin_get htarget
    (by simp [Wire.Request.sentHeaders])

end Rendezvous

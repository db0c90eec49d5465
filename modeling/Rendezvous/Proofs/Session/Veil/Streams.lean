import Mathlib.Data.List.Forall2
import Rendezvous.Proofs.Session.Polling.Reading
import Rendezvous.Proofs.Wire.Framing
import Rendezvous.Session.Basic

/-!
# Streams that differ in payloads

Two streams of responses that have the same heads, and whose bodies are of the same lengths but may
be different bytes where a response is about another peer. Whatever stands in such a body, and
wherever the streams are cut, a framer finds the same responses in both up to these bodies, stops in
both for the same reason, and is left with bytes that go on alike.
-/

namespace Rendezvous

open Wire

/-- Whether two bodies are payloads that mean the same to a session: neither is the token by which a
peer hangs up. -/
def AreOpaque (body body' : Bytes) : Prop := body ≠ hangUpToken ∧ body' ≠ hangUpToken

/-- Two streams that differ at most in the bodies of responses about others than the peer with the
own id. The last response of either may be incomplete. -/
inductive UpToPayloads (own : Int) : Bytes → Bytes → Prop where
  | same (s : Bytes) : UpToPayloads own s s
  | response {head body body' rest rest' : Bytes}
      (whole : cutHead (head ++ headEnd) = some (head, []))
      (announced : bodyLength (Response.readHead head).2 = .ok body.length)
      (size : body'.length = body.length)
      (payload : body = body' ∨
        (Response.ofParts head body).peerId? ≠ some own ∧ AreOpaque body body')
      (behind : UpToPayloads own rest rest') :
      UpToPayloads own (head ++ headEnd ++ body ++ rest) (head ++ headEnd ++ body' ++ rest')
  | part {head body body' : Bytes} {length : Nat}
      (whole : cutHead (head ++ headEnd) = some (head, []))
      (announced : bodyLength (Response.readHead head).2 = .ok length)
      (short : body.length < length) (size : body'.length = body.length)
      (other : (Response.ofParts head body).peerId? ≠ some own) :
      UpToPayloads own (head ++ headEnd ++ body) (head ++ headEnd ++ body')

/-- Lists that correspond are empty together. -/
theorem isEmpty_eq_of_forall₂ {α β : Type} {R : α → β → Prop} {l : List α} {l' : List β}
    (h : List.Forall₂ R l l') : l'.isEmpty = l.isEmpty := by
  cases h <;> rfl

/-- Two responses that differ at most in their bodies, where they are about another peer. -/
structure Wire.Response.IsLike (own : Int) (r r' : Response) : Prop where
  status : r'.status = r.status
  headers : r'.headers = r.headers
  size : r'.body.length = r.body.length
  payload : r.body = r'.body ∨ r.peerId? ≠ some own ∧ AreOpaque r.body r'.body
  raw : r'.raw.length = r.raw.length

namespace Wire.Response

variable {own : Int} {r r' : Response}

/-- A response is like itself. -/
theorem IsLike.refl (r : Response) : IsLike own r r := ⟨rfl, rfl, rfl, .inl rfl, rfl⟩

/-- Responses that are alike are of the same peer. -/
theorem IsLike.peerId? (h : IsLike own r r') : r'.peerId? = r.peerId? := by
  rw [Response.peerId?, h.headers, Response.peerId?]

private theorem IsLike.closes (h : IsLike own r r') : r'.closes = r.closes := by
  rw [Response.closes, h.headers, Response.closes]

/-- Responses that are alike are granted alike. -/
theorem IsLike.isOk (h : IsLike own r r') : r'.isOk = r.isOk := by
  rw [Response.isOk, h.status, Response.isOk]

end Wire.Response

/-! ### Finding the next response -/

namespace Wire.Framer

variable {head body : Bytes}

private theorem next?_of_short (hwhole : cutHead (head ++ headEnd) = some (head, [])) {length : Nat}
    (hannounced : bodyLength (Response.readHead head).2 = .ok length)
    (hshort : body.length < length) (limit : Option Int) :
    (⟨limit, head ++ headEnd ++ body⟩ : Framer).next? =
      (⟨limit, head ++ headEnd ++ body⟩ : Framer).awaitMore := by
  have hcut : cutHead (head ++ headEnd ++ body) = some (head, body) :=
    cutHead_append_of_cutHead hwhole _
  simp only [next?, hcut, hannounced, if_pos hshort]

/-- Waiting for more depends on nothing but how much is held. -/
theorem awaitMore_of_length {α : Type} {f f' : Framer} (hlimit : f'.limit = f.limit)
    (hlength : f'.buffer.length = f.buffer.length) :
    (f'.awaitMore : Except FramingError (Option α)) = f.awaitMore := by
  unfold awaitMore isOverLimit buffered
  rw [hlimit, hlength]

end Wire.Framer

namespace UpToPayloads

variable {own : Int} {s s' : Bytes}

private theorem length (h : UpToPayloads own s s') : s'.length = s.length := by
  induction h with
  | same => rfl
  | response _ _ size _ _ ih => simp only [List.length_append, size, ih]
  | part _ _ _ size => simp only [List.length_append, size]

/-- What is found at the front of two streams: an error of both, nothing yet in either, or two
responses that differ at most in payloads, with more of the same behind them. -/
theorem next? (h : UpToPayloads own s s') (limit : Option Int) :
    (∃ e, (⟨limit, s⟩ : Framer).next? = .error e ∧ (⟨limit, s'⟩ : Framer).next? = .error e) ∨
      ((⟨limit, s⟩ : Framer).next? = .ok none ∧ (⟨limit, s'⟩ : Framer).next? = .ok none) ∨
      ∃ r r' rest rest', (⟨limit, s⟩ : Framer).next? = .ok (some (r, rest)) ∧
        (⟨limit, s'⟩ : Framer).next? = .ok (some (r', rest')) ∧ r.IsLike own r' ∧
        UpToPayloads own rest rest' := by
  cases h with
  | same =>
    rcases (⟨limit, s⟩ : Framer).next? with e | _ | ⟨r, rest⟩
    · exact .inl ⟨e, rfl, rfl⟩
    · exact .inr (.inl ⟨rfl, rfl⟩)
    · exact .inr (.inr ⟨r, r, rest, rest, rfl, rfl, .refl r, .same rest⟩)
  | @response head body body' rest rest' whole announced size payload hrest =>
    refine .inr (.inr ⟨_, _, _, _, Framer.next?_ofParts whole announced limit,
      Framer.next?_ofParts whole (size ▸ announced) limit, ⟨rfl, rfl, size, payload, ?_⟩, hrest⟩)
    simp only [Response.ofParts, List.length_append, size]
  | @part head body body' length whole announced short size other =>
    have hshort' : body'.length < length := size ▸ short
    have hlength : (head ++ headEnd ++ body').length = (head ++ headEnd ++ body).length := by
      simp only [List.length_append, size]
    have hsame : ((⟨limit, head ++ headEnd ++ body'⟩ : Framer).awaitMore :
        Except FramingError (Option (Response × Bytes))) =
          (⟨limit, head ++ headEnd ++ body⟩ : Framer).awaitMore :=
      Framer.awaitMore_of_length rfl hlength
    rw [Framer.next?_of_short whole announced short limit,
      Framer.next?_of_short whole announced hshort' limit, hsame, Framer.awaitMore]
    split
    · exact .inl ⟨_, rfl, rfl⟩
    · exact .inr (.inl ⟨rfl, rfl⟩)

/-- With the first response of each taken off, the streams go on alike, whatever comes behind. -/
theorem drop {limit : Option Int} {r r' : Response} {rest rest' more more' : Bytes}
    (hlength : s'.length = s.length)
    (hfound : (⟨limit, s⟩ : Framer).next? = .ok (some (r, rest)))
    (hfound' : (⟨limit, s'⟩ : Framer).next? = .ok (some (r', rest')))
    (h : UpToPayloads own (s ++ more) (s' ++ more')) :
    UpToPayloads own (rest ++ more) (rest' ++ more') := by
  have hnext := Framer.next?_feed hfound more
  have hnext' := Framer.next?_feed hfound' more'
  simp only [Framer.feed] at hnext hnext'
  generalize hs : s ++ more = stream at h hnext
  generalize hs' : s' ++ more' = stream' at h hnext'
  cases h with
  | same =>
    obtain ⟨rfl, rfl⟩ := List.append_inj (hs.trans hs'.symm) hlength.symm
    rw [hfound, Except.ok.injEq, Option.some.injEq, Prod.mk.injEq] at hfound'
    rw [hfound'.2]
    exact .same _
  | @response head body body' tail tail' whole announced size payload htail =>
    rw [Framer.next?_ofParts whole announced] at hnext
    rw [Framer.next?_ofParts whole (size ▸ announced)] at hnext'
    simp only [Except.ok.injEq, Option.some.injEq, Prod.mk.injEq] at hnext hnext'
    rw [← hnext.2, ← hnext'.2]
    exact htail
  | part whole announced short =>
    rw [Framer.next?_of_short whole announced short] at hnext
    exact absurd hnext (Framer.awaitMore_ne_some _ _)

/-- What comes of two streams that are read at one go: the same responses up to payloads are found,
the reading ends in the same way, and as many bytes are left. These go on alike if the streams do,
unless nothing is left. -/
structure ReadAlike (own : Int) (s s' : Bytes)
    (out out' : List Response × NotifyLink.Outcome × Framer) : Prop where
  responses : List.Forall₂ (Response.IsLike own) out.1 out'.1
  outcome : out'.2.1 = out.2.1
  limit : out'.2.2.limit = out.2.2.limit
  length : out'.2.2.buffer.length = out.2.2.buffer.length
  onward : out.2.2.buffer = [] ∨ ∀ own more more', UpToPayloads own (s ++ more) (s' ++ more') →
    UpToPayloads own (out.2.2.buffer ++ more) (out'.2.2.buffer ++ more')

/-- The induction is on the bytes that are left to read. -/
theorem drain (h : UpToPayloads own s s') (limit : Option Int) :
    ReadAlike own s s' (NotifyLink.drain ⟨limit, s⟩) (NotifyLink.drain ⟨limit, s'⟩) := by
  induction hn : s.length using Nat.strongRecOn generalizing s s' with
  | _ n ih =>
    rcases h.next? limit with ⟨e, hnext, hnext'⟩ | ⟨hnext, hnext'⟩ |
      ⟨r, r', rest, rest', hnext, hnext', hlike, hrest⟩
    · rw [NotifyLink.drain_of_error hnext, NotifyLink.drain_of_error hnext']
      exact ⟨.nil, rfl, rfl, h.length, .inr fun _ _ _ ↦ id⟩
    · rw [NotifyLink.drain_of_none hnext, NotifyLink.drain_of_none hnext']
      exact ⟨.nil, rfl, rfl, h.length, .inr fun _ _ _ ↦ id⟩
    · have hcloses' := hlike.closes
      cases hcloses : r.closes with
      | true =>
        rw [hcloses] at hcloses'
        rw [NotifyLink.drain_of_closes hnext hcloses, NotifyLink.drain_of_closes hnext' hcloses']
        exact ⟨.cons hlike .nil, rfl, rfl, rfl, .inl rfl⟩
      | false =>
        rw [hcloses] at hcloses'
        have hshorter : rest.length < n := hn ▸ Framer.length_lt_of_next? hnext
        have hread := ih _ hshorter hrest rfl
        rw [NotifyLink.drain_of_stays hnext hcloses, NotifyLink.drain_of_stays hnext' hcloses']
        exact ⟨.cons hlike hread.responses, hread.outcome, hread.limit, hread.length,
          hread.onward.imp_right fun honward own more more' hmore ↦
            honward own more more' (drop h.length hnext hnext' hmore)⟩

end UpToPayloads

end Rendezvous

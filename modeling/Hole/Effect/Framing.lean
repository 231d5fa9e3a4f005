import Mathlib.Data.List.Basic

/-!
# Frames of a stream

A stream of symbols comes in chunks that say nothing about where a frame ends. A `Framing` takes the
next frame off the front of what has come, and may not change its mind when more comes. Draining all
frames after each chunk is then draining them once, off the whole stream.
-/

namespace Effect

/-- How frames are taken off a stream. -/
structure Framing (α β : Type*) where
  /-- The frame at the front, if all of it is there, and what comes after it. -/
  next : List α → Option (β × List α)
  next_length : ∀ {xs b rest}, next xs = some (b, rest) → rest.length < xs.length
  next_append : ∀ {xs b rest}, next xs = some (b, rest) →
    ∀ ys, next (xs ++ ys) = some (b, rest ++ ys)

namespace Framing

variable {α β : Type*} (F : Framing α β)

/-- The frames at the front, and the rest, which is no frame. -/
def drain (xs : List α) : List β × List α :=
  match h : F.next xs with
  | none => ([], xs)
  | some (b, rest) =>
    have := F.next_length h
    let r := drain rest
    (b :: r.1, r.2)
termination_by xs.length

/-- One chunk: the frames taken so far, and what is left. -/
def feed (s : List β × List α) (chunk : List α) : List β × List α :=
  let r := F.drain (s.2 ++ chunk)
  (s.1 ++ r.1, r.2)

/-- All chunks. -/
def feedAll (chunks : List (List α)) : List β × List α := chunks.foldl F.feed ([], [])

variable {F}

theorem drain_none {xs : List α} (h : F.next xs = none) : F.drain xs = ([], xs) := by
  rw [drain]
  split
  · rfl
  · next hsome => exact absurd (h.symm.trans hsome) nofun

theorem drain_some {xs rest : List α} {b : β} (h : F.next xs = some (b, rest)) :
    F.drain xs = (b :: (F.drain rest).1, (F.drain rest).2) := by
  rw [drain]
  split
  · next hnone => exact absurd (h.symm.trans hnone) nofun
  · next hsome =>
    obtain ⟨rfl, rfl⟩ := Prod.mk.inj (Option.mem_unique h hsome)
    rfl

/-- A property of what is drained, by the frames. -/
theorem drain_induction {P : List α → Prop} (stuck : ∀ xs, F.next xs = none → P xs)
    (frame : ∀ xs b rest, F.next xs = some (b, rest) → P rest → P xs) (xs : List α) : P xs := by
  induction h : xs.length using Nat.strongRecOn generalizing xs with
  | _ n ih =>
    cases hnext : F.next xs with
    | none => exact stuck xs hnext
    | some p =>
      obtain ⟨b, rest⟩ := p
      exact frame xs b rest hnext (ih rest.length (h ▸ F.next_length hnext) rest rfl)

/-- **What is left is no frame.** -/
theorem next_drain (xs : List α) : F.next (F.drain xs).2 = none := by
  induction xs using F.drain_induction with
  | stuck xs h => rwa [drain_none h]
  | frame xs b rest h ih => rwa [drain_some h]

/-- Frames that are there before more comes are the first ones after it. -/
theorem drain_append (xs ys : List α) :
    F.drain (xs ++ ys) = ((F.drain xs).1 ++ (F.drain ((F.drain xs).2 ++ ys)).1,
      (F.drain ((F.drain xs).2 ++ ys)).2) := by
  induction xs using F.drain_induction with
  | stuck xs h => rw [drain_none h]; rfl
  | frame xs b rest h ih => rw [drain_some h, drain_some (F.next_append h ys), ih]; rfl

theorem feed_foldl (bs : List β) {xs : List α} (h : F.next xs = none) (chunks : List (List α)) :
    chunks.foldl F.feed (bs, xs) =
      (bs ++ (F.drain (xs ++ chunks.flatten)).1, (F.drain (xs ++ chunks.flatten)).2) := by
  induction chunks generalizing bs xs with
  | nil => rw [List.flatten_nil, List.append_nil, drain_none h, List.append_nil]; rfl
  | cons chunk chunks ih =>
    rw [List.foldl_cons, feed, ih _ (next_drain _), List.flatten_cons, ← List.append_assoc,
      drain_append (xs ++ chunk), List.append_assoc bs]

/-- **Where the chunks end makes no difference.** -/
theorem feedAll_eq (h : F.next [] = none) (chunks : List (List α)) :
    F.feedAll chunks = F.drain chunks.flatten := by
  rw [feedAll, feed_foldl [] h, List.nil_append]
  rfl

/-! ### Encodings -/

section Encode

variable {encode : β → List α}

/-- What is taken off and what is left are what came, if each frame is the encoding of what it
gives. -/
theorem encode_drain (hsound : ∀ xs b rest, F.next xs = some (b, rest) → xs = encode b ++ rest)
    (xs : List α) : (F.drain xs).1.flatMap encode ++ (F.drain xs).2 = xs := by
  induction xs using F.drain_induction with
  | stuck xs h => rw [drain_none h]; rfl
  | frame xs b rest h ih =>
    rw [drain_some h, List.flatMap_cons, List.append_assoc, ih]
    exact (hsound xs b rest h).symm

/-- Encodings give back what they encode. -/
theorem drain_encode {bs : List β}
    (hcomplete : ∀ b ∈ bs, ∀ xs, F.next (encode b ++ xs) = some (b, xs)) (xs : List α) :
    F.drain (bs.flatMap encode ++ xs) = (bs ++ (F.drain xs).1, (F.drain xs).2) := by
  induction bs with
  | nil => rfl
  | cons b bs ih =>
    have hrest := ih fun b' hb' ↦ hcomplete b' (.tail _ hb')
    rw [List.flatMap_cons, List.append_assoc, drain_some (hcomplete b List.mem_cons_self _), hrest]
    rfl

/-- While encodings come, those that are complete have been given back, and what is left is the
beginning of the next. -/
theorem drain_of_prefix (hsound : ∀ xs b rest, F.next xs = some (b, rest) → xs = encode b ++ rest)
    {bs : List β} (hcomplete : ∀ b ∈ bs, ∀ xs, F.next (encode b ++ xs) = some (b, xs))
    (hnil : F.next [] = none) {xs ys : List α} (h : xs ++ ys = bs.flatMap encode) :
    ∃ waiting, bs = (F.drain xs).1 ++ waiting ∧ (F.drain xs).2 ++ ys = waiting.flatMap encode ∧
      ∀ b more, waiting = b :: more →
        ∃ missing, missing ≠ [] ∧ (F.drain xs).2 ++ missing = encode b := by
  have hall : F.drain (xs ++ ys) = (bs, []) := by
    rw [h, ← List.append_nil (bs.flatMap encode), drain_encode hcomplete, drain_none hnil,
      List.append_nil]
  rw [drain_append] at hall
  obtain ⟨hbs, hleft⟩ := Prod.mk.inj hall
  have hwaiting := encode_drain hsound ((F.drain xs).2 ++ ys)
  rw [hleft, List.append_nil] at hwaiting
  refine ⟨_, hbs.symm, hwaiting.symm, fun b more hmore ↦ ?_⟩
  rw [hmore, List.flatMap_cons] at hwaiting
  obtain ⟨missing, hmissing, -⟩ | ⟨more', hrest, -⟩ := List.append_eq_append_iff.1 hwaiting.symm
  · refine ⟨missing, fun hnone ↦ ?_, hmissing.symm⟩
    -- A frame that is complete would have been taken off.
    have hb : b ∈ bs := by
      rw [← hbs, hmore]
      exact List.mem_append_right _ (.head _)
    rw [hnone, List.append_nil] at hmissing
    have hnext := hcomplete b hb []
    rw [List.append_nil, hmissing, next_drain] at hnext
    cases hnext
  · have hb : b ∈ bs := by
      rw [← hbs, hmore]
      exact List.mem_append_right _ (.head _)
    have hnext := hcomplete b hb more'
    rw [← hrest, next_drain] at hnext
    cases hnext

end Encode

end Framing

end Effect

/-
`Proofs/ByteStream.lean` -- what reading a stream to its end gives.

Reading goes by the size of the buffer and not by the chunks, but only the chunks
matter: what is read is all of them in order up to the first empty one, which a reader
takes for the end. The fault of a stream comes after its chunks. It is met exactly when
no empty chunk stops the reading before it.
-/
import Galley.Typesetter.ByteStream

set_option autoImplicit false

namespace Galley.ByteStream

/-- What chunks and the fault after them deliver to a reader. -/
def delivery (fault : Option String) : List (List UInt8) → Except String (List UInt8)
  | [] =>
    match fault with
    | some text => .error text
    | none => .ok []
  | chunk :: rest =>
    if chunk = [] then .ok [] else (delivery fault rest).map (chunk ++ ·)

/-- The front of a chunk can be taken off, as long as something of it is left. -/
theorem delivery_cut (fault : Option String) (first : List UInt8) {second : List UInt8}
    (hsecond : second ≠ []) (rest : List (List UInt8)) :
    delivery fault ((first ++ second) :: rest)
      = (delivery fault (second :: rest)).map (first ++ ·) := by
  have hboth : first ++ second ≠ [] := List.append_ne_nil_of_right_ne_nil first hsecond
  rw [delivery, delivery, if_neg hsecond, if_neg hboth]
  cases delivery fault rest with
  | error text => rfl
  | ok bytes => exact congrArg Except.ok (List.append_assoc first second bytes)

/-! ## One read -/

variable {limit : Nat} {s rest : ByteStream} {bytes : List UInt8}

theorem delivery_of_read_error {text : String} (h : s.read limit = .error text) :
    delivery s.fault s.chunks = .error text := by
  rw [read] at h
  split at h
  · next hchunks =>
    split at h
    · next text' hfault =>
      cases h
      rw [hchunks, hfault]
      rfl
    · cases h
  · cases h

/-- A read of nothing is the end or an empty chunk. -/
theorem delivery_of_read_nil (hlimit : 0 < limit) (h : s.read limit = .ok ([], rest)) :
    delivery s.fault s.chunks = .ok [] := by
  rw [read] at h
  split at h
  · next hchunks =>
    split at h
    · cases h
    · next hfault =>
      rw [hchunks, hfault]
      rfl
  · next chunk later hchunks =>
    have htake : chunk.take limit = [] := (Prod.mk.inj (Except.ok.inj h)).1
    have hchunk : chunk = [] := by
      rcases List.take_eq_nil_iff.mp htake with hzero | hnil
      · omega
      · exact hnil
    rw [hchunks, hchunk]
    rfl

/-- A read of something takes it off the front of what is delivered. -/
theorem delivery_of_read (h : s.read limit = .ok (bytes, rest)) (hne : bytes ≠ []) :
    delivery s.fault s.chunks = (delivery rest.fault rest.chunks).map (bytes ++ ·) := by
  rw [read] at h
  split at h
  · split at h
    · cases h
    · exact absurd (Prod.mk.inj (Except.ok.inj h)).1.symm hne
  · next chunk later hchunks =>
    obtain ⟨rfl, rfl⟩ := Prod.mk.inj (Except.ok.inj h)
    rw [hchunks]
    -- The buffer takes the whole chunk, or the rest of it is a chunk of its own.
    by_cases hlater : chunk.drop limit = []
    · have hwhole : chunk.take limit = chunk := by
        rw [← List.append_nil (chunk.take limit), ← hlater, List.take_append_drop]
      rw [hwhole] at hne ⊢
      simp only [hlater, List.isEmpty_nil, if_true]
      rw [delivery, if_neg hne]
    · have hpart : (chunk.drop limit).isEmpty = false := by
        simpa using hlater
      simp only [hpart, Bool.false_eq_true, if_false]
      have hcut := delivery_cut s.fault (chunk.take limit) hlater later
      rwa [List.take_append_drop] at hcut

/-- **Draining.** The pieces that were read come first, then what the rest delivers. The
induction is on the reads, so a chunk is cut as often as the buffer is too small. -/
theorem drain_eq (hlimit : 0 < limit) (done : List (List UInt8)) (s : ByteStream) :
    drain limit done s = (delivery s.fault s.chunks).map (done.reverse.flatten ++ ·) := by
  fun_induction drain limit done s with
  | case1 done s text h =>
    rw [delivery_of_read_error h]
    rfl
  | case2 done s rest h =>
    rw [delivery_of_read_nil hlimit h]
    exact congrArg Except.ok (List.append_nil _).symm
  | case3 done s bytes rest h hne _ ih =>
    rw [ih, delivery_of_read h hne]
    cases delivery rest.fault rest.chunks with
    | error text => rfl
    | ok later =>
      have hdone : (bytes :: done).reverse.flatten = done.reverse.flatten ++ bytes := by
        rw [List.reverse_cons, List.flatten_append, List.flatten_singleton]
      rw [hdone]
      exact congrArg Except.ok (List.append_assoc _ bytes later)

theorem readAll_eq (s : ByteStream) : s.readAll = delivery s.fault s.chunks := by
  rw [readAll, drain_eq (by decide)]
  cases delivery s.fault s.chunks <;> rfl

/-! ## When reading fails -/

/-- Reading fails with the fault of the stream if no chunk is empty, and not otherwise. -/
theorem readAll_error_iff (s : ByteStream) (text : String) :
    s.readAll = .error text ↔ s.fault = some text ∧ [] ∉ s.chunks := by
  rw [readAll_eq]
  induction s.chunks with
  | nil =>
    cases s.fault <;> simp [delivery]
  | cons chunk rest ih =>
    rw [delivery]
    by_cases hchunk : chunk = []
    · simp [hchunk]
    · rw [if_neg hchunk, List.mem_cons, not_or]
      have hmap : (delivery s.fault rest).map (chunk ++ ·) = .error text
          ↔ delivery s.fault rest = .error text := by
        cases delivery s.fault rest with
        | error text' => exact Iff.rfl
        | ok bytes => exact iff_of_false nofun nofun
      rw [hmap, ih]
      simp [Ne.symm hchunk]

end Galley.ByteStream

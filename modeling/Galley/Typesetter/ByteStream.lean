/-
`Typesetter/ByteStream.lean` -- output that arrives in pieces.

A stream yields its chunks one read at a time, a chunk longer than the reader's buffer
in several reads, and then ends or fails. A read of no bytes means the end to a reader,
so an empty chunk ends the stream for it too. Draining reads until then; it stops
because every read that yields something leaves less to read.
-/
set_option autoImplicit false

namespace Galley

/-- A stream of bytes: its chunks and the fault that follows them, if one does. -/
structure ByteStream where
  chunks : List (List UInt8)
  fault : Option String := none
  deriving DecidableEq, Repr

namespace ByteStream

/-- The stream of bytes that are all there already. -/
def ofBytes (bytes : List UInt8) : ByteStream := { chunks := [bytes] }

/-- One read into a buffer of `limit` bytes: what it yields and the stream after it. -/
def read (limit : Nat) (s : ByteStream) : Except String (List UInt8 × ByteStream) :=
  match s.chunks with
  | [] =>
    match s.fault with
    | some text => .error text
    | none => .ok ([], s)
  | chunk :: rest =>
    let later := chunk.drop limit
    .ok (chunk.take limit, { s with chunks := if later.isEmpty then rest else later :: rest })

/-- A bound on the number of reads that yield something. -/
def weight (s : ByteStream) : Nat :=
  s.chunks.foldr (fun chunk n => chunk.length + 1 + n) 0

/-- A read that yields something leaves less to read. -/
theorem weight_lt_of_read {limit : Nat} {s t : ByteStream} {bytes : List UInt8}
    (h : s.read limit = .ok (bytes, t)) (hne : bytes ≠ []) : t.weight < s.weight := by
  obtain ⟨chunks, fault⟩ := s
  cases chunks with
  | nil =>
    cases fault with
    | some text => simp [read] at h
    | none =>
      simp only [read, Except.ok.injEq, Prod.mk.injEq] at h
      exact absurd h.1.symm hne
  | cons chunk rest =>
    simp only [read, Except.ok.injEq, Prod.mk.injEq] at h
    obtain ⟨rfl, rfl⟩ := h
    have hlimit : limit ≠ 0 := by rintro rfl; simp at hne
    have hchunk : chunk.length ≠ 0 := by
      intro hzero
      rw [List.length_eq_zero_iff.mp hzero] at hne
      simp at hne
    have hshorter : (chunk.drop limit).length < chunk.length := by
      rw [List.length_drop]
      omega
    by_cases hlater : (chunk.drop limit).isEmpty = true
    · simp only [weight, hlater, if_true, List.foldr_cons]
      omega
    · simp only [weight, hlater, Bool.false_eq_true, if_false, List.foldr_cons]
      omega

/-- Reads to the end with a buffer of `limit` bytes, after the pieces in `done`, which
holds them latest first. -/
def drain (limit : Nat) (done : List (List UInt8)) (s : ByteStream) :
    Except String (List UInt8) :=
  match h : s.read limit with
  | .error text => .error text
  | .ok (bytes, rest) =>
    if hne : bytes = [] then .ok done.reverse.flatten
    else
      have := weight_lt_of_read h hne
      drain limit (bytes :: done) rest
termination_by s.weight

/-- The size of the buffer that output is read into. -/
def bufferSize : Nat := 8 * 1024

/-- All bytes of a stream, unless a read fails. -/
def readAll (s : ByteStream) : Except String (List UInt8) := drain bufferSize [] s

end ByteStream

end Galley

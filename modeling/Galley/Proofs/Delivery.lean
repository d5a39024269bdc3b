/-
`Proofs/Delivery.lean` -- a rendering delivers the bytes of its stream.

What a reader sees of a stream are reads: pieces that are never longer than the buffer,
and at some point a read of nothing or a fault. The loop that puts the pieces together
keeps one thing: what it has gathered is what the reads so far have yielded. So a whole
rendering succeeds exactly when a read of nothing comes before a fault, and then with the
pieces before it in order. How the stream was cut into chunks shows in the pieces and not
in the bytes: they are those of the chunks up to the first empty one.
-/
import Galley.Proofs.Rendering
import Mathlib.Data.List.TakeWhile

set_option autoImplicit false

namespace Galley

namespace ByteStream

/-! ## Reads -/

/-- What the reads of a stream yield one after the other, and the stream after them. -/
inductive Reads (limit : Nat) : ByteStream → List (List UInt8) → ByteStream → Prop where
  | none (s : ByteStream) : Reads limit s [] s
  | more {s t u : ByteStream} {piece : List UInt8} {pieces : List (List UInt8)} :
      s.read limit = .ok (piece, t) → Reads limit t pieces u → Reads limit s (piece :: pieces) u

/-- The reads of a whole buffer yield `pieces`, none of them empty, and the next read yields
nothing. -/
def EndsAfter (s : ByteStream) (pieces : List (List UInt8)) : Prop :=
  [] ∉ pieces ∧ ∃ t u, Reads bufferSize s pieces t ∧ t.read bufferSize = .ok ([], u)

/-- The reads of a whole buffer yield `pieces`, none of them empty, and the next read fails. -/
def BreaksAfter (s : ByteStream) (pieces : List (List UInt8)) (text : String) : Prop :=
  [] ∉ pieces ∧ ∃ t, Reads bufferSize s pieces t ∧ t.read bufferSize = .error text

variable {limit : Nat} {s t u : ByteStream} {bytes : List UInt8} {pieces : List (List UInt8)}
  {text : String}

/-- No read yields more than the buffer holds. -/
theorem length_le_of_read (h : s.read limit = .ok (bytes, t)) : bytes.length ≤ limit := by
  rw [read] at h
  split at h
  · split at h
    · cases h
    · obtain ⟨rfl, -⟩ := Prod.mk.inj (Except.ok.inj h)
      exact Nat.zero_le limit
  · obtain ⟨rfl, -⟩ := Prod.mk.inj (Except.ok.inj h)
    exact List.length_take_le limit _

theorem length_le_of_reads (h : Reads limit s pieces t) :
    ∀ piece ∈ pieces, piece.length ≤ limit := by
  induction h with
  | none s => exact List.forall_mem_nil _
  | more hread _ ih => exact List.forall_mem_cons.mpr ⟨length_le_of_read hread, ih⟩

/-! ## The loop -/

/-- A read of something puts it to what is gathered. -/
theorem drain_of_read (h : s.read limit = .ok (bytes, t)) (hne : bytes ≠ [])
    (done : List (List UInt8)) : drain limit done s = drain limit (bytes :: done) t := by
  rw [drain]
  split
  · next hread => cases hread.symm.trans h
  · next hread =>
    obtain ⟨rfl, rfl⟩ := Prod.mk.inj (Except.ok.inj (hread.symm.trans h))
    exact dif_neg hne

/-- A read of nothing ends the loop. -/
theorem drain_of_end (h : s.read limit = .ok ([], t)) (done : List (List UInt8)) :
    drain limit done s = .ok done.reverse.flatten := by
  rw [drain]
  split
  · next hread => cases hread.symm.trans h
  · next hread =>
    obtain ⟨rfl, rfl⟩ := Prod.mk.inj (Except.ok.inj (hread.symm.trans h))
    exact dif_pos rfl

/-- A fault ends it too, and what is gathered is lost. -/
theorem drain_of_fault (h : s.read limit = .error text) (done : List (List UInt8)) :
    drain limit done s = .error text := by
  rw [drain]
  split
  · next hread => exact congrArg Except.error (Except.error.inj (hread.symm.trans h))
  · next hread => cases hread.symm.trans h

/-- **What the loop keeps.** After any reads of something the loop has gathered what they
yielded, and goes on with the stream after them. -/
theorem drain_of_reads (h : Reads limit s pieces t) (hne : [] ∉ pieces)
    (done : List (List UInt8)) :
    drain limit done s = drain limit (pieces.reverse ++ done) t := by
  induction h generalizing done with
  | none s => rfl
  | @more s t u piece pieces hread _ ih =>
    rw [List.mem_cons, not_or] at hne
    obtain ⟨hpiece, hpieces⟩ := hne
    rw [drain_of_read hread (Ne.symm hpiece), ih hpieces, List.reverse_cons, List.append_assoc,
      List.singleton_append]

/-- Every stream comes to a read of nothing or to a fault. The induction is that of the
loop. -/
theorem exists_reads (limit : Nat) (s : ByteStream) :
    ∃ pieces t, [] ∉ pieces ∧ Reads limit s pieces t ∧
      ((∃ u, t.read limit = .ok ([], u)) ∨ ∃ text, t.read limit = .error text) := by
  fun_induction drain limit [] s with
  | case1 done s text h => exact ⟨[], s, List.not_mem_nil, .none s, .inr ⟨text, h⟩⟩
  | case2 done s rest h => exact ⟨[], s, List.not_mem_nil, .none s, .inl ⟨rest, h⟩⟩
  | case3 done s bytes rest h hne _ ih =>
    obtain ⟨pieces, t, hpieces, hreads, hend⟩ := ih
    have hall : [] ∉ bytes :: pieces := by
      rw [List.mem_cons, not_or]
      exact ⟨Ne.symm hne, hpieces⟩
    exact ⟨bytes :: pieces, t, hall, .more h hreads, hend⟩

theorem readAll_of_endsAfter (h : s.EndsAfter pieces) : s.readAll = .ok pieces.flatten := by
  obtain ⟨hne, t, u, hreads, hend⟩ := h
  rw [readAll, drain_of_reads hreads hne, drain_of_end hend, List.append_nil, List.reverse_reverse]

theorem readAll_of_breaksAfter (h : s.BreaksAfter pieces text) : s.readAll = .error text := by
  obtain ⟨hne, t, hreads, hfault⟩ := h
  rw [readAll, drain_of_reads hreads hne, drain_of_fault hfault]

/-- A stream ends for its reader or breaks off. -/
theorem ends_or_breaks (s : ByteStream) :
    (∃ pieces, s.EndsAfter pieces) ∨ ∃ pieces text, s.BreaksAfter pieces text := by
  obtain ⟨pieces, t, hne, hreads, ⟨u, hend⟩ | ⟨text, hfault⟩⟩ := exists_reads bufferSize s
  · exact .inl ⟨pieces, hne, t, u, hreads, hend⟩
  · exact .inr ⟨pieces, text, hne, t, hreads, hfault⟩

theorem readAll_ok_iff :
    s.readAll = .ok bytes ↔ ∃ pieces, s.EndsAfter pieces ∧ bytes = pieces.flatten := by
  constructor
  · intro h
    rcases s.ends_or_breaks with ⟨pieces, hends⟩ | ⟨pieces, text, hbreaks⟩
    · exact ⟨pieces, hends, Except.ok.inj (h.symm.trans (readAll_of_endsAfter hends))⟩
    · cases h.symm.trans (readAll_of_breaksAfter hbreaks)
  · rintro ⟨pieces, hends, rfl⟩
    exact readAll_of_endsAfter hends

theorem readAll_eq_error_iff : s.readAll = .error text ↔ ∃ pieces, s.BreaksAfter pieces text := by
  constructor
  · intro h
    rcases s.ends_or_breaks with ⟨pieces, hends⟩ | ⟨pieces, text', hbreaks⟩
    · cases h.symm.trans (readAll_of_endsAfter hends)
    · obtain rfl := Except.error.inj (h.symm.trans (readAll_of_breaksAfter hbreaks))
      exact ⟨pieces, hbreaks⟩
  · rintro ⟨pieces, hbreaks⟩
    exact readAll_of_breaksAfter hbreaks

/-! ## Reads and chunks -/

/-- The bytes of a stream up to the first empty chunk. -/
def content (s : ByteStream) : List UInt8 := (s.chunks.takeWhile (· ≠ [])).flatten

/-- What is delivered are the bytes up to the first empty chunk or up to the end. -/
theorem delivery_eq_ok_iff {fault : Option String} {chunks : List (List UInt8)} :
    delivery fault chunks = .ok bytes ↔
      ([] ∈ chunks ∨ fault = none) ∧ bytes = (chunks.takeWhile (· ≠ [])).flatten := by
  induction chunks generalizing bytes with
  | nil =>
    cases fault with
    | none => simp [delivery, eq_comm]
    | some text => simp [delivery]
  | cons chunk rest ih =>
    rw [delivery]
    by_cases hchunk : chunk = []
    · simp [hchunk, eq_comm]
    · have htake : (chunk :: rest).takeWhile (· ≠ []) = chunk :: rest.takeWhile (· ≠ []) :=
        List.takeWhile_cons_of_pos (by simpa using hchunk)
      rw [if_neg hchunk, htake, List.mem_cons, List.flatten_cons]
      simp only [Ne.symm hchunk, false_or]
      cases hrest : delivery fault rest with
      | ok later =>
        obtain ⟨hends, hlater⟩ := ih.mp hrest
        rw [← hlater]
        simp [Except.map, hends, eq_comm]
      | error text =>
        have hbroken : ¬ ([] ∈ rest ∨ fault = none) := fun hends => by
          cases hrest.symm.trans (ih.mpr ⟨hends, rfl⟩)
        simp [Except.map, hbroken]

/-- Reading ends when there is an empty chunk or no fault, with the bytes before that. -/
theorem readAll_ok_iff_content :
    s.readAll = .ok bytes ↔ ([] ∈ s.chunks ∨ s.fault = none) ∧ bytes = s.content := by
  rw [readAll_eq]
  exact delivery_eq_ok_iff

/-- A stream ends for its reader exactly when an empty chunk or its own end comes before a
fault. -/
theorem ends_iff : (∃ pieces, s.EndsAfter pieces) ↔ [] ∈ s.chunks ∨ s.fault = none := by
  constructor
  · rintro ⟨pieces, hends⟩
    exact (readAll_ok_iff_content.mp (readAll_of_endsAfter hends)).1
  · intro h
    obtain ⟨pieces, hends, -⟩ := readAll_ok_iff.mp (readAll_ok_iff_content.mpr ⟨h, rfl⟩)
    exact ⟨pieces, hends⟩

theorem flatten_of_endsAfter (h : s.EndsAfter pieces) : pieces.flatten = s.content :=
  (readAll_ok_iff_content.mp (readAll_of_endsAfter h)).2

/-- Without empty chunks a stream is its bytes and its fault. -/
theorem content_of_not_mem (h : [] ∉ s.chunks) : s.content = s.chunks.flatten := by
  have hall : s.chunks.takeWhile (· ≠ []) = s.chunks :=
    List.takeWhile_eq_self_iff.mpr fun chunk hchunk => by simpa using ne_of_mem_of_not_mem hchunk h
  rw [content, hall]

/-- Without empty chunks it does not matter how the bytes are cut. -/
theorem readAll_congr (hs : [] ∉ s.chunks) (ht : [] ∉ t.chunks)
    (hbytes : s.chunks.flatten = t.chunks.flatten) (hfault : s.fault = t.fault) :
    s.readAll = t.readAll := by
  cases hread : t.readAll with
  | error text =>
    obtain ⟨htext, -⟩ := (t.readAll_error_iff text).mp hread
    exact (s.readAll_error_iff text).mpr ⟨hfault.trans htext, hs⟩
  | ok bytes =>
    obtain ⟨hends, rfl⟩ := readAll_ok_iff_content.mp hread
    refine readAll_ok_iff_content.mpr ⟨.inr ?_, ?_⟩
    · exact hfault.trans (hends.resolve_left ht)
    · rw [content_of_not_mem hs, content_of_not_mem ht, hbytes]

/-- Bytes that are all there already are read as they are, also when there are none. -/
theorem readAll_ofBytes (bytes : List UInt8) : (ofBytes bytes).readAll = .ok bytes := by
  refine readAll_ok_iff_content.mpr ⟨.inr rfl, ?_⟩
  by_cases hempty : bytes = []
  · rw [hempty]
    rfl
  · have hchunks : [] ∉ (ofBytes bytes).chunks := by
      simpa [ofBytes] using Ne.symm hempty
    rw [content_of_not_mem hchunks]
    exact (List.flatten_singleton).symm

end ByteStream

/-! ## Whole renderings -/

namespace Document

variable {σ : Type} {typesetter : Typesetter σ} {format : BinaryFormat} {d : Document} {s after : σ}
  {output : ByteStream}

/-- A whole rendering is the reading of the stream that the typesetter answers with. -/
theorem render_of_stream (h : typesetter.run ⟨d.source, format⟩ s = (.stream output, after)) :
    (d.render typesetter (.ofBinary format) s).1
      = match output.readAll with
        | .ok bytes => .delivered ⟨.ofBinary format, bytes⟩
        | .error text => .failed (.io text) := by
  rw [render_ofBinary, materialize_eq, h, Outcome.verdict, Verdict.bind, ByteStream.collect]
  cases output.readAll <;> rfl

theorem render_delivered_iff
    (h : typesetter.run ⟨d.source, format⟩ s = (.stream output, after)) (artifact : Artifact) :
    (d.render typesetter (.ofBinary format) s).1 = .delivered artifact ↔
      ∃ pieces, output.EndsAfter pieces ∧ artifact = ⟨.ofBinary format, pieces.flatten⟩ := by
  rw [render_of_stream h]
  constructor
  · intro hdelivered
    cases hread : output.readAll with
    | error text =>
      rw [hread] at hdelivered
      cases hdelivered
    | ok bytes =>
      rw [hread] at hdelivered
      obtain ⟨pieces, hends, rfl⟩ := ByteStream.readAll_ok_iff.mp hread
      exact ⟨pieces, hends, (Verdict.delivered.inj hdelivered).symm⟩
  · rintro ⟨pieces, hends, rfl⟩
    rw [ByteStream.readAll_of_endsAfter hends]

theorem render_failed_iff
    (h : typesetter.run ⟨d.source, format⟩ s = (.stream output, after)) (cause : PressError) :
    (d.render typesetter (.ofBinary format) s).1 = .failed cause ↔
      ∃ pieces text, output.BreaksAfter pieces text ∧ cause = .io text := by
  rw [render_of_stream h]
  constructor
  · intro hfailed
    cases hread : output.readAll with
    | ok bytes =>
      rw [hread] at hfailed
      cases hfailed
    | error text =>
      rw [hread] at hfailed
      obtain ⟨pieces, hbreaks⟩ := ByteStream.readAll_eq_error_iff.mp hread
      exact ⟨pieces, text, hbreaks, (Verdict.failed.inj hfailed).symm⟩
  · rintro ⟨pieces, text, hbreaks, rfl⟩
    rw [ByteStream.readAll_of_breaksAfter hbreaks]

/-- A canned response is a stream of bytes that are all there. -/
theorem run_canned {canned : Canned} {bytes : List UInt8}
    (h : canned.response format = .ok bytes) :
    Canned.typesetter.run ⟨d.source, format⟩ canned
      = (.stream (.ofBytes bytes),
        { canned with received := canned.received ++ [⟨d.source, format⟩] }) := by
  change canned.answer _ = _
  rw [Canned.answer, h]

/-- **Nothing is lost and nothing comes twice.** A rendering for a text channel is one to
PDF. When the typesetter answers with a stream, a rendering delivers what the reads yield
before a read of nothing, in order; it fails with the fault when a read fails first, and
there is no third way. No read yields more than the buffer holds. A read of nothing comes
before a fault exactly when a chunk is empty or there is no fault, and the pieces before it
are together the chunks before it. Streams of the same bytes without empty chunks are
rendered alike, and a canned response is delivered as it is. -/
theorem rendering_delivers_the_stream {σ : Type} (typesetter : Typesetter σ) (d : Document) :
    (∀ s : σ, d.renderForText typesetter s = d.render typesetter .pdf s) ∧
    (∀ (format : BinaryFormat) (s after : σ) (output : ByteStream),
      typesetter.run ⟨d.source, format⟩ s = (.stream output, after) →
      let verdict := (d.render typesetter (.ofBinary format) s).1
      (∀ artifact, verdict = .delivered artifact ↔
        ∃ pieces, output.EndsAfter pieces ∧ artifact = ⟨.ofBinary format, pieces.flatten⟩) ∧
      (∀ cause, verdict = .failed cause ↔
        ∃ pieces text, output.BreaksAfter pieces text ∧ cause = .io text) ∧
      verdict ≠ .abandoned ∧
      ((∃ pieces, output.EndsAfter pieces) ↔ [] ∈ output.chunks ∨ output.fault = none) ∧
      ∀ pieces, output.EndsAfter pieces →
        (∀ piece ∈ pieces, piece.length ≤ 8 * 1024) ∧
        pieces.flatten = (output.chunks.takeWhile (· ≠ [])).flatten) ∧
    (∀ (format : BinaryFormat) (s after s' after' : σ) (output output' : ByteStream),
      typesetter.run ⟨d.source, format⟩ s = (.stream output, after) →
      typesetter.run ⟨d.source, format⟩ s' = (.stream output', after') →
      [] ∉ output.chunks → [] ∉ output'.chunks →
      output.chunks.flatten = output'.chunks.flatten → output.fault = output'.fault →
      (d.render typesetter (.ofBinary format) s).1
        = (d.render typesetter (.ofBinary format) s').1) ∧
    ∀ (format : BinaryFormat) (canned : Canned) (bytes : List UInt8),
      canned.response format = .ok bytes →
      (d.render Canned.typesetter (.ofBinary format) canned).1
        = .delivered ⟨.ofBinary format, bytes⟩ := by
  refine ⟨fun s => rfl, ?_, ?_, ?_⟩
  · intro format s after output h verdict
    refine ⟨render_delivered_iff h, render_failed_iff h, ?_, ByteStream.ends_iff, ?_⟩
    · intro habandoned
      have hverdict := (render_of_stream h).symm.trans habandoned
      cases hread : output.readAll <;> rw [hread] at hverdict <;> cases hverdict
    · intro pieces hends
      obtain ⟨-, t, u, hreads, -⟩ := id hends
      exact ⟨ByteStream.length_le_of_reads hreads, ByteStream.flatten_of_endsAfter hends⟩
  · intro format s after s' after' output output' h h' hne hne' hbytes hfault
    rw [render_of_stream h, render_of_stream h', ByteStream.readAll_congr hne hne' hbytes hfault]
  · intro format canned bytes h
    rw [render_of_stream (run_canned h), ByteStream.readAll_ofBytes]

/-- A fault behind an empty chunk is never met, bytes cut in another way are the same
artifact, and a response of no bytes is an artifact of none. -/
theorem empty_chunk_hides_fault :
    let d := opened {} []
    let hidden : Script :=
      { queue := [.stream { chunks := [[1, 2], [3], [], [4]], fault := some "pipe broke" }] }
    let whole : Script := { queue := [.stream { chunks := [[1, 2, 3]] }] }
    let cut : Script := { queue := [.stream { chunks := [[1], [2, 3]] }] }
    (d.render Script.typesetter .dvi hidden).1 = .delivered ⟨.dvi, [1, 2, 3]⟩ ∧
      (d.render Script.typesetter .dvi whole).1 = (d.render Script.typesetter .dvi cut).1 ∧
      (d.render Canned.typesetter .pdf (Canned.respond {} .pdf [])).1 = .delivered ⟨.pdf, []⟩ := by
  intro d hidden whole cut
  obtain ⟨-, hdelivers, halike, hcanned⟩ := rendering_delivers_the_stream Script.typesetter d
  have hends : ByteStream.EndsAfter
      { chunks := [[1, 2], [3], [], [4]], fault := some "pipe broke" } [[1, 2], [3]] :=
    ⟨by decide, _, _, .more rfl (.more rfl (.none _)), rfl⟩
  refine ⟨?_, ?_, hcanned .pdf _ [] rfl⟩
  · exact ((hdelivers .dvi hidden _ _ rfl).1 _).mpr ⟨_, hends, rfl⟩
  · exact halike .dvi whole _ cut _ _ _ rfl rfl (by decide) (by decide) rfl rfl

end Document

end Galley

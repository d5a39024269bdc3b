/-
`Proofs/LogLines.lean` -- a log may be cut into lines before its bytes are decoded.

An engine breaks the lines of its log by bytes, in the middle of a character if need be, and
so the log need not be UTF-8. It is decoded as a whole and then cut into lines. But what ends
a line and what marks an error are ASCII bytes, and decoding neither loses nor makes any of
them. The lines are those of the bytes, each decoded by itself, and which of them are shown is
known before anything is decoded. What is broken in one line stays in it.
-/
import Galley.Proofs.Diagnostics
import Galley.Proofs.LossyUtf8
import Galley.Text.Lines
import Galley.Typesetter.Engine

set_option autoImplicit false

namespace Galley

/-! ## Lines of any symbols -/

namespace Text

section Lines

variable {α : Type} [DecidableEq α] {lineFeed carriageReturn : α}

/-- A line that a feed ends, without the carriage return before the feed. -/
def withoutReturn (carriageReturn : α) (line : List α) : List α :=
  if line.getLast? = some carriageReturn then line.dropLast else line

theorem reverse_dropReturn (line : List α) :
    (dropReturn carriageReturn line).reverse = withoutReturn carriageReturn line.reverse := by
  cases line with
  | nil => rfl
  | cons c line => by_cases hc : c = carriageReturn <;> simp [dropReturn, withoutReturn, hc]

/-- What is read of a line before its end is kept. -/
theorem linesFrom_of_not_mem {line : List α} (h : lineFeed ∉ line) (done rest : List α) :
    linesFrom lineFeed carriageReturn done (line ++ rest)
      = linesFrom lineFeed carriageReturn (line.reverse ++ done) rest := by
  induction line generalizing done with
  | nil => rfl
  | cons c line ih =>
    have hc : c ≠ lineFeed := Ne.symm (List.ne_of_not_mem_cons h)
    rw [List.cons_append, linesFrom, if_neg hc, ih (List.not_mem_of_not_mem_cons h),
      List.reverse_cons, List.append_assoc, List.singleton_append]

/-- The first line of several. -/
theorem linesBy_cons {line : List α} (h : lineFeed ∉ line) (rest : List α) :
    linesBy lineFeed carriageReturn (line ++ lineFeed :: rest)
      = withoutReturn carriageReturn line :: linesBy lineFeed carriageReturn rest := by
  rw [linesBy, linesFrom_of_not_mem h, List.append_nil, linesFrom, if_pos rfl, reverse_dropReturn,
    List.reverse_reverse, linesBy]

/-- What no feed ends is a line if it is anything. -/
theorem linesBy_last {line : List α} (h : lineFeed ∉ line) :
    linesBy lineFeed carriageReturn line = if line = [] then [] else [line] := by
  have hread : linesFrom lineFeed carriageReturn [] line
      = linesFrom lineFeed carriageReturn line.reverse [] := by
    simpa using linesFrom_of_not_mem h [] []
  rw [linesBy, hread]
  cases line <;> simp [linesFrom]

/-- Symbols are read line by line. -/
theorem lines_induction {motive : List α → Prop} (lineFeed : α)
    (last : ∀ line, lineFeed ∉ line → motive line)
    (cons : ∀ line rest, lineFeed ∉ line → motive rest → motive (line ++ lineFeed :: rest))
    (symbols : List α) : motive symbols := by
  induction hlength : symbols.length using Nat.strongRecOn generalizing symbols with
  | ind n ih =>
    -- The line up to the first feed, and what is behind the feed.
    by_cases hfeed : lineFeed ∈ symbols
    · obtain ⟨line, rest, rfl, hline⟩ := List.eq_append_cons_of_mem hfeed
      refine cons line rest hline (ih rest.length ?_ rest rfl)
      rw [← hlength, List.length_append, List.length_cons]
      omega
    · exact last symbols hfeed

/-- A feed separates the lines before it from those behind it. -/
theorem linesBy_append (before after : List α) :
    linesBy lineFeed carriageReturn (before ++ lineFeed :: after)
      = linesBy lineFeed carriageReturn (before ++ [lineFeed])
        ++ linesBy lineFeed carriageReturn after := by
  induction before using lines_induction lineFeed with
  | last line hline =>
    rw [linesBy_cons hline, linesBy_cons hline]
    rfl
  | cons line rest hline ih =>
    rw [List.append_assoc, List.append_assoc, List.cons_append, List.cons_append,
      linesBy_cons hline, linesBy_cons hline, ih, List.cons_append]

end Lines

/-! ## Lines of bytes -/

open Utf8 (decodeLossy)

theorem feed_not_mem_decodeLossy {line : List UInt8} (h : 0x0A ∉ line) :
    '\n' ∉ (decodeLossy line).toList :=
  fun hmem => h ((Utf8.mem_decodeLossy_iff (by decide)).mp hmem)

theorem decodeLossy_withoutReturn (line : List UInt8) :
    (decodeLossy (withoutReturn 0x0D line)).toList
      = withoutReturn '\r' (decodeLossy line).toList := by
  by_cases hreturn : line.getLast? = some 0x0D
  · obtain ⟨front, rfl⟩ := List.getLast?_eq_some_iff.mp hreturn
    have hcut : (decodeLossy (front ++ [0x0D])).toList = (decodeLossy front).toList ++ ['\r'] :=
      Utf8.decodeLossy_append_ascii front [] (by decide)
    rw [hcut]
    simp [withoutReturn]
  · have hnone : (decodeLossy line).toList.getLast? ≠ some '\r' :=
      fun hlast => hreturn (Utf8.getLast?_of_decodeLossy (by decide) hlast)
    rw [withoutReturn, if_neg hreturn, withoutReturn, if_neg hnone]

/-- **Lines and broken characters.** A decoded text has the lines of its bytes, each decoded by
itself. -/
theorem lines_decodeLossy (bytes : List UInt8) :
    lines (decodeLossy bytes) = (byteLines bytes).map decodeLossy := by
  -- Line by line: no line has a feed before it is decoded, and so none has one after.
  have hsymbols : linesBy '\n' '\r' (decodeLossy bytes).toList
      = (byteLines bytes).map fun line => (decodeLossy line).toList := by
    induction bytes using lines_induction (0x0A : UInt8) with
    | last line hline =>
      rw [linesBy_last (feed_not_mem_decodeLossy hline), byteLines, linesBy_last hline]
      simp only [Utf8.toList_decodeLossy_eq_nil_iff]
      split <;> rfl
    | cons line rest hline ih =>
      have hcut : (decodeLossy (line ++ 0x0A :: rest)).toList
          = (decodeLossy line).toList ++ '\n' :: (decodeLossy rest).toList :=
        Utf8.decodeLossy_append_ascii line rest (by decide)
      rw [hcut, linesBy_cons (feed_not_mem_decodeLossy hline), ih, byteLines, byteLines,
        linesBy_cons hline, List.map_cons, decodeLossy_withoutReturn]
  rw [lines, hsymbols, List.map_map]
  exact List.map_congr_left fun line _ => String.ofList_toList

/-! ## One line among others -/

/-- Bytes that are a line between what is before and behind them: feeds, or the ends of the text.
Behind the last feed there is a line only if there is anything. -/
structure IsLine (before line after : List UInt8) : Prop where
  starts : before = [] ∨ before.getLast? = some 0x0A
  feed_not_mem : 0x0A ∉ line
  ends : after = [] ∨ after.head? = some 0x0A
  ne_nil : after = [] → line ≠ []

/-- A line as it counts among the lines of a text: the last one keeps a carriage return. -/
def lineBefore (after line : List UInt8) : List UInt8 :=
  if after = [] then line else withoutReturn 0x0D line

variable {before line line' after : List UInt8}

/-- A line stands behind those before it. -/
theorem IsLine.byteLines_eq (h : IsLine before line after) :
    byteLines (before ++ line ++ after)
      = byteLines before ++ lineBefore after line :: byteLines (after.drop 1) := by
  have hlast : byteLines (line ++ after) = lineBefore after line :: byteLines (after.drop 1) := by
    rcases h.ends with rfl | hends
    · rw [List.append_nil, byteLines, linesBy_last h.feed_not_mem, if_neg (h.ne_nil rfl)]
      rfl
    · obtain ⟨rest, rfl⟩ := List.head?_eq_some_iff.mp hends
      rw [byteLines, linesBy_cons h.feed_not_mem]
      rfl
  rcases h.starts with rfl | hstarts
  · exact hlast
  · -- A feed ends what is before, so its lines are cut off first.
    obtain ⟨front, rfl⟩ := List.getLast?_eq_some_iff.mp hstarts
    rw [List.append_assoc, List.append_assoc, List.singleton_append, byteLines, linesBy_append]
    exact congrArg _ hlast

/-- Another line in the place of one is one line of the text. -/
theorem IsLine.byteLines_set (h : IsLine before line after) (h' : IsLine before line' after) :
    byteLines (before ++ line' ++ after)
      = (byteLines (before ++ line ++ after)).set (byteLines before).length
          (lineBefore after line') := by
  rw [h.byteLines_eq, h'.byteLines_eq, List.set_append_right _ _ (Nat.le_refl _), Nat.sub_self,
    List.set_cons_zero]

end Text

/-! ## What is shown of a log -/

namespace Diagnostics

open Text
open Text.Utf8 (decodeLossy)

/-- Whether a line of bytes reports an error. -/
def isErrorBytes (line : List UInt8) : Bool := line.head? == some 0x21

theorem isErrorLine_decodeLossy (line : List UInt8) :
    isErrorLine (decodeLossy line) = isErrorBytes line := by
  rw [Bool.eq_iff_iff, isErrorLine, isErrorBytes, beq_iff_eq, beq_iff_eq]
  exact Utf8.head?_decodeLossy_iff (b := 0x21) (by decide)

/-- No error is reported or taken back by what ends a line. -/
theorem isErrorBytes_lineBefore (after line : List UInt8) :
    isErrorBytes (lineBefore after line) = isErrorBytes line := by
  rw [lineBefore]
  split
  · rfl
  rw [withoutReturn]
  split
  next hreturn =>
    obtain ⟨front, rfl⟩ := List.getLast?_eq_some_iff.mp hreturn
    rw [List.dropLast_concat]
    cases front <;> rfl
  next => rfl

/-- **What is shown of a log** that is still bytes. -/
theorem ofLog_decodeLossy (bytes : List UInt8) :
    ofLog (decodeLossy bytes) = String.intercalate "\n" (pick ((byteLines bytes).map decodeLossy)
      (shownPositions ((byteLines bytes).map isErrorBytes))) := by
  have hflags : ((byteLines bytes).map decodeLossy).map isErrorLine
      = (byteLines bytes).map isErrorBytes := by
    rw [List.map_map]
    exact List.map_congr_left fun line _ => isErrorLine_decodeLossy line
  rw [ofLog_eq, lines_decodeLossy, hflags]

variable {before line line' after : List UInt8}

/-- A line in the place of another leaves the flags as they are if both report an error or none
does. -/
theorem errorFlags_eq (h : IsLine before line after) (h' : IsLine before line' after)
    (herror : isErrorBytes line = isErrorBytes line') :
    (byteLines (before ++ line' ++ after)).map isErrorBytes
      = (byteLines (before ++ line ++ after)).map isErrorBytes := by
  rw [h.byteLines_eq, h'.byteLines_eq]
  simp only [List.map_append, List.map_cons, isErrorBytes_lineBefore, herror]

end Diagnostics

/-! ## Failing runs -/

namespace EngineSettings

open Text
open Text.Utf8 (decodeLossy)
open Diagnostics (isErrorBytes pick shownPositions)

variable {s : EngineSettings} {run : EngineRun} {bytes : List UInt8}

theorem log_of_file (hlog : run.file? s.logFile = some bytes) : s.log run = decodeLossy bytes := by
  rw [log, hlog]

/-- A failing run is refused with what is shown of its log. -/
theorem judge_of_failed (hfailed : run.status ≠ .exited 0)
    (hlog : run.file? s.logFile = some bytes) (format : BinaryFormat) :
    s.judge format run = .refused (.failed run.status.text
      (String.intercalate "\n" (pick ((byteLines bytes).map decodeLossy)
        (shownPositions ((byteLines bytes).map isErrorBytes))))) := by
  rw [judge, if_pos hfailed, log_of_file hlog, Diagnostics.ofLog_decodeLossy]

example : ({} : EngineSettings).judge .pdf
    { status := .killed { number := 11 } true, files := [("document.log", [0x21, 0x20, 0x78])] }
      = .refused (.failed "signal: 11 (SIGSEGV) (core dumped)" "! x") := by
  decide

/-- **Broken characters stay in their line.** The lines of the log of a failing run, whatever bytes
it has left, are the lines of the bytes, each decoded by itself. Which of them are shown depends on
which lines of bytes start with an exclamation mark. Other bytes in the place of one line, with a
mark in front or without one as before, change the text of that line in what is shown and nothing
else. -/
theorem broken_characters_stay_in_their_line (hfailed : run.status ≠ .exited 0)
    (hlog : run.file? s.logFile = some bytes) (format : BinaryFormat) :
    (lines (s.log run) = (byteLines bytes).map decodeLossy ∧
      (∀ line rest : List UInt8, 0x0A ∉ line →
        byteLines (line ++ 0x0A :: rest)
          = (if line.getLast? = some 0x0D then line.dropLast else line) :: byteLines rest) ∧
      (∀ line : List UInt8, 0x0A ∉ line → byteLines line = if line = [] then [] else [line])) ∧
    (let texts := (byteLines bytes).map decodeLossy
     let positions := shownPositions ((byteLines bytes).map isErrorBytes)
     s.judge format run
        = .refused (.failed run.status.text (String.intercalate "\n" (pick texts positions))) ∧
      ∀ before line line' after, bytes = before ++ line ++ after →
        IsLine before line after → IsLine before line' after →
        (line.head? = some 0x21 ↔ line'.head? = some 0x21) →
        ∀ run' : EngineRun, run'.status = run.status →
          run'.file? s.logFile = some (before ++ line' ++ after) →
          s.judge format run'
            = .refused (.failed run.status.text (String.intercalate "\n"
                (pick (texts.set (byteLines before).length (decodeLossy (lineBefore after line')))
                  positions)))) := by
  refine ⟨⟨?_, fun line rest hline => linesBy_cons hline rest, fun line => linesBy_last⟩,
    judge_of_failed hfailed hlog format, ?_⟩
  · rw [log_of_file hlog, lines_decodeLossy]
  · rintro before line line' after rfl hline hline' hmark run' hstatus hlog'
    have hfailed' : run'.status ≠ .exited 0 := hstatus ▸ hfailed
    have herror : isErrorBytes line = isErrorBytes line' := by
      rw [Bool.eq_iff_iff, isErrorBytes, isErrorBytes, beq_iff_eq, beq_iff_eq]
      exact hmark
    rw [judge_of_failed hfailed' hlog', hstatus, Diagnostics.errorFlags_eq hline hline' herror,
      hline.byteLines_set hline', List.map_set]

/-- A character is cut by a feed, its second half starts a line, and the log ends within another.
The error is shown as it stands, and so are other bytes in its place. -/
theorem broken_log_shows_its_error :
    let s : EngineSettings := {}
    let before : List UInt8 := [0xC3, 0x0A, 0xA9, 0x0D, 0x0A]
    let after : List UInt8 := [0x0A, 0x6C, 0x2E, 0x33, 0xE2, 0x82]
    let run : EngineRun :=
      { status := .exited 1
        files := [("document.log", before ++ [0x21, 0x20, 0x78, 0xC3] ++ after)] }
    let run' : EngineRun :=
      { status := .exited 1, files := [("document.log", before ++ [0x21, 0xFF, 0x0D] ++ after)] }
    lines (s.log run) = ["\uFFFD", "\uFFFD", "! x\uFFFD", "l.3\uFFFD"] ∧
      s.judge .pdf run = .refused (.failed "exit status: 1" "! x\uFFFD\nl.3\uFFFD") ∧
      s.judge .pdf run' = .refused (.failed "exit status: 1" "!\uFFFD\nl.3\uFFFD") := by
  intro s before after run run'
  have hfailed : run.status ≠ .exited 0 := by decide
  have hlog : run.file? s.logFile = some (before ++ [0x21, 0x20, 0x78, 0xC3] ++ after) := by decide
  have hline : IsLine before [0x21, 0x20, 0x78, 0xC3] after :=
    ⟨.inr rfl, by decide, .inr rfl, by decide⟩
  have hline' : IsLine before [0x21, 0xFF, 0x0D] after := ⟨.inr rfl, by decide, .inr rfl, by decide⟩
  obtain ⟨⟨hlines, -⟩, hrun, hchange⟩ :=
    broken_characters_stay_in_their_line hfailed hlog .pdf
  refine ⟨hlines.trans (by decide), hrun.trans (by decide), ?_⟩
  exact (hchange before _ _ after rfl hline hline' (by decide) run' rfl (by decide)).trans
    (by decide)

end EngineSettings

end Galley

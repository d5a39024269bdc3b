/-
`Proofs/Tables.lean` -- tables keep what is put into them.

A table sets its cells between ampersands and its rows between rules. Nothing of a cell is
changed on the way, so the fragment says what it was made from, as long as no text brings a
separator of its own: a line feed, an ampersand in a cell, or a bar in the type of a column.
Then the fragment falls apart into lines at its line feeds, a row into its cells at the
ampersands, and the types of the columns at their bars, and each time what comes out is what
was put in. A cell may be spelt like a rule or end in a backslash; the line that it stands
in ends in two, which no rule does.

A row of the wrong width would shift the grid, and so the first of them is refused.
-/
import Galley.Proofs.Effect
import Galley.Proofs.Lines

set_option autoImplicit false

namespace Galley.Construct

open Tex

/-! ## What a table is refused for -/

section Refusals

variable {columns : List String} {rows : List (List String)} {width : Nat}

theorem misfit?_eq_none_iff : misfit? width rows = none ↔ ∀ row ∈ rows, row.length = width := by
  simp only [misfit?, Option.map_eq_none_iff, List.find?_eq_none, decide_eq_true_eq,
    Decidable.not_not]
  constructor
  · intro h row hrow
    obtain ⟨i, hi, rfl⟩ := List.mem_iff_getElem.mp hrow
    exact h (rows[i], i) (by simp [List.mem_zipIdx_iff_getElem?, hi])
  · intro h entry hentry
    exact h entry.1 (List.fst_mem_of_mem_zipIdx hentry)

theorem misfit?_eq_some_iff {i actual : Nat} :
    misfit? width rows = some (i, actual) ↔
      ∃ row, rows[i]? = some row ∧ row.length = actual ∧ row.length ≠ width ∧
        ∀ j < i, ∀ other, rows[j]? = some other → other.length = width := by
  rw [misfit?, Option.map_eq_some_iff]
  simp only [List.find?_eq_some_iff_getElem, decide_eq_true_eq, Prod.mk.injEq]
  constructor
  · rintro ⟨⟨row, _⟩, ⟨hwidth, j, hj, hrow, hbefore⟩, rfl, rfl⟩
    rw [List.length_zipIdx] at hj
    simp only [List.getElem_zipIdx, Nat.zero_add, Prod.mk.injEq] at hrow
    obtain ⟨rfl, rfl⟩ := hrow
    refine ⟨_, List.getElem?_eq_getElem hj, rfl, hwidth, fun k hk other hother => ?_⟩
    have hother' := List.getElem?_eq_getElem (Nat.lt_trans hk hj)
    rw [hother] at hother'
    obtain rfl := Option.some.inj hother'
    simpa using hbefore k hk
  · rintro ⟨row, hrow, rfl, hwidth, hbefore⟩
    obtain ⟨hi, rfl⟩ := List.getElem?_eq_some_iff.mp hrow
    -- The row stands at its own number among the numbered rows.
    refine ⟨(rows[i], i), ⟨hwidth, i, by simpa using hi, by simp, fun k hk => ?_⟩, rfl, rfl⟩
    have hk' : k < rows.length := Nat.lt_trans hk hi
    simpa using hbefore k hk rows[k] (List.getElem?_eq_getElem hk')

/-- The columns are looked at before the rows, and the rows in order. -/
theorem table_error_iff {e : ValidationError} :
    table columns rows = .error e ↔
      (columns = [] ∧ e = .noColumns) ∨
      (columns ≠ [] ∧ ∃ i row, rows[i]? = some row ∧ row.length ≠ columns.length ∧
        (∀ j < i, ∀ other, rows[j]? = some other → other.length = columns.length) ∧
        e = .rowWidth i columns.length row.length) := by
  by_cases hcolumns : columns = []
  · rw [table, if_pos (List.isEmpty_iff.mpr hcolumns)]
    simp [hcolumns, @eq_comm _ e]
  · rw [table, if_neg (fun h => hcolumns (List.isEmpty_iff.mp h))]
    cases hmisfit : misfit? columns.length rows with
    | none =>
      rw [misfit?_eq_none_iff] at hmisfit
      refine iff_of_false nofun ?_
      rintro (⟨hempty, -⟩ | ⟨-, i, row, hrow, hwidth, -⟩)
      · exact hcolumns hempty
      · exact hwidth (hmisfit row (List.mem_of_getElem? hrow))
    | some entry =>
      obtain ⟨i, actual⟩ := entry
      constructor
      · intro h
        obtain ⟨row, hrow, rfl, hwidth, hbefore⟩ := misfit?_eq_some_iff.mp hmisfit
        exact .inr ⟨hcolumns, i, row, hrow, hwidth, hbefore, (Except.error.inj h).symm⟩
      · rintro (⟨hempty, -⟩ | ⟨-, j, row, hrow, hwidth, hbefore, rfl⟩)
        · exact absurd hempty hcolumns
        · -- There is one first misfit only, and the search has found it.
          have hfirst := misfit?_eq_some_iff.mpr ⟨row, hrow, rfl, hwidth, hbefore⟩
          rw [hmisfit] at hfirst
          obtain ⟨rfl, rfl⟩ := Prod.mk.inj (Option.some.inj hfirst)
          rfl

end Refusals

/-! ## The lines of a table -/

/-- The line that opens a table. -/
def headLine (columns : List String) : String :=
  command "begin" ["tabularx", Tex.control "textwidth", columnTypes columns]

/-- The line of the cells of a row. -/
def rowLine (cells : List String) : String := String.intercalate " & " cells ++ "\\\\"

/-- A row between its rules, and the mark of the head behind the first row. -/
def rowLines (cells : List String) (isHead : Bool) : List String :=
  ["\\bottomrule", rowLine cells, "\\toprule"] ++ if isHead then ["\\endhead"] else []

/-- The lines of all rows, the first of which has the given number. -/
def bodyLines (rows : List (List String)) (first : Nat) : List String :=
  (rows.zipIdx first).flatMap fun entry => rowLines entry.1 (entry.2 == 0)

/-- The lines that close a table. -/
def footLines : List String := ["", "\\end\x7btabularx\x7d", "\\flushleft"]

/-- The lines of a table. -/
def tableLines (columns : List String) (rows : List (List String)) : List String :=
  headLine columns :: bodyLines rows 0 ++ footLines

/-- The types of the columns stand between two fixed texts. -/
theorem headLine_eq (columns : List String) :
    headLine columns
      = command "begin" ["tabularx", Tex.control "textwidth"] ++ "\x7b" ++ columnTypes columns
        ++ "\x7d" := by
  simp only [headLine, command, group, List.map_cons, List.map_nil, String.join_cons,
    String.join_nil, String.append_assoc, String.append_empty]

theorem bodyLines_cons (row : List String) (rows : List (List String)) (first : Nat) :
    bodyLines (row :: rows) first = rowLines row (first == 0) ++ bodyLines rows (first + 1) := by
  rw [bodyLines, List.zipIdx_cons, List.flatMap_cons]
  rfl

theorem tableRow_eq (cells : List String) (isHead : Bool) :
    tableRow cells isHead
      = String.join ((rowLines cells isHead).map fun line => line ++ "\n") := by
  cases isHead <;> simp [tableRow, rowLines, rowLine, Tex.control, String.append_assoc]

theorem join_tableRow (rows : List (List String)) (first : Nat) :
    String.join ((rows.zipIdx first).map fun entry => tableRow entry.1 (entry.2 == 0))
      = String.join ((bodyLines rows first).map fun line => line ++ "\n") := by
  induction rows generalizing first with
  | nil => rfl
  | cons row rows ih =>
    rw [bodyLines, List.zipIdx_cons, List.map_cons, String.join_cons, ih, tableRow_eq,
      List.flatMap_cons, List.map_append, String.join_append]
    rfl

/-- **A table that is not refused is its lines.** -/
theorem table_eq_lines {columns : List String} {rows : List (List String)} (hcolumns : columns ≠ [])
    (hrows : ∀ row ∈ rows, row.length = columns.length) :
    table columns rows = .ok (String.intercalate "\n" (tableLines columns rows)) := by
  -- The empty line between the rows and the end is the first of the last lines.
  have hfoot : "\n" ++ command "end" ["tabularx"] ++ "\n" ++ Tex.control "flushleft"
      = String.intercalate "\n" footLines := by decide
  rw [table, if_neg (fun h => hcolumns (List.isEmpty_iff.mp h)),
    misfit?_eq_none_iff.mpr hrows, tableLines, List.cons_append,
    String.intercalate_cons_of_ne_nil (by simp [footLines]), ← join_lines _ (by simp [footLines]),
    ← join_tableRow, ← hfoot]
  simp only [headLine, String.append_assoc]

/-! ### What stands in the lines -/

/-- The texts of a table bring no separators of their own. -/
structure Legible (columns : List String) (rows : List (List String)) : Prop where
  columns : ∀ column ∈ columns, '|' ∉ column.toList ∧ '\n' ∉ column.toList
  cells : ∀ row ∈ rows, ∀ cell ∈ row, '&' ∉ cell.toList ∧ '\n' ∉ cell.toList

theorem lineFeed_not_mem_headLine {columns : List String}
    (h : ∀ column ∈ columns, '\n' ∉ column.toList) : '\n' ∉ (headLine columns).toList := by
  have hbegin : '\n' ∉ (command "begin" ["tabularx", Tex.control "textwidth"]).toList := by decide
  have htypes : '\n' ∉ (columnTypes columns).toList := by
    simpa [columnTypes, String.toList_join] using h
  simp [headLine_eq, hbegin, htypes]

theorem lineFeed_not_mem_rowLine {cells : List String}
    (h : ∀ cell ∈ cells, '\n' ∉ cell.toList) : '\n' ∉ (rowLine cells).toList := by
  have hcells : '\n' ∉ (String.intercalate " & " cells).toList :=
    not_mem_intercalate (by decide) h
  rw [rowLine, String.toList_append, List.mem_append, not_or]
  exact ⟨hcells, by decide⟩

theorem mem_rowLines {cells : List String} {isHead : Bool} {line : String}
    (h : line ∈ rowLines cells isHead) :
    line = rowLine cells ∨ line ∈ ["\\bottomrule", "\\toprule", "\\endhead"] := by
  simp only [rowLines, List.mem_append, List.mem_cons, List.not_mem_nil, or_false] at h
  rcases h with (rfl | rfl | rfl) | hmark
  · exact .inr (by decide)
  · exact .inl rfl
  · exact .inr (by decide)
  · cases isHead with
    | true =>
      rw [List.mem_singleton.mp hmark]
      exact .inr (by decide)
    | false => cases hmark

theorem lineFeed_not_mem_bodyLines {rows : List (List String)} (first : Nat)
    (h : ∀ row ∈ rows, ∀ cell ∈ row, '\n' ∉ cell.toList) :
    ∀ line ∈ bodyLines rows first, '\n' ∉ line.toList := by
  intro line hline
  obtain ⟨entry, hentry, hline⟩ := List.mem_flatMap.mp hline
  rcases mem_rowLines hline with rfl | hrule
  · exact lineFeed_not_mem_rowLine (h entry.1 (List.fst_mem_of_mem_zipIdx hentry))
  · have hrules : ∀ rule ∈ ["\\bottomrule", "\\toprule", "\\endhead"], '\n' ∉ rule.toList := by
      decide
    exact hrules line hrule

/-- The lines of a table are those that it is made of. -/
theorem lines_tableLines {columns : List String} {rows : List (List String)}
    (h : Legible columns rows) :
    lines (String.intercalate "\n" (tableLines columns rows)) = tableLines columns rows := by
  refine pieces_intercalate (by simp [tableLines]) fun line hline => ?_
  simp only [tableLines, List.cons_append, List.mem_cons, List.mem_append] at hline
  rcases hline with rfl | hline | hline
  · exact lineFeed_not_mem_headLine fun column hcolumn => (h.columns column hcolumn).2
  · exact lineFeed_not_mem_bodyLines 0 (fun row hrow cell hcell => (h.cells row hrow cell hcell).2)
      line hline
  · have hfoot : ∀ line ∈ footLines, '\n' ∉ line.toList := by decide
    exact hfoot line hline

/-! ### Rules -/

/-- No line of cells is a rule, whatever the cells are: it ends in a backslash. -/
theorem rowLine_ne {rule : String} (h : rule.toList.getLast? ≠ some '\\') (cells : List String) :
    rowLine cells ≠ rule := by
  rintro rfl
  exact h (by simp [rowLine])

/-- Nor is the line that opens the table. -/
theorem headLine_ne {rule : String} (h : rule.toList.getLast? ≠ some '\x7d')
    (columns : List String) : headLine columns ≠ rule := by
  rintro rfl
  apply h
  rw [headLine_eq, String.toList_append, List.getLast?_append]
  rfl

/-- One rule stands before the cells of a row and one after them. -/
theorem count_bodyLines_rule {rule : String} (hrule : rule = "\\bottomrule" ∨ rule = "\\toprule")
    (rows : List (List String)) (first : Nat) :
    (bodyLines rows first).count rule = rows.length := by
  have hrow : ∀ (cells : List String) (isHead : Bool), (rowLines cells isHead).count rule = 1 := by
    intro cells isHead
    have hcells : rowLine cells ≠ rule := by
      apply rowLine_ne
      rcases hrule with rfl | rfl <;> decide
    rcases hrule with rfl | rfl <;> cases isHead <;> simp [rowLines, hcells]
  induction rows generalizing first with
  | nil => rfl
  | cons row rows ih =>
    rw [bodyLines_cons, List.count_append, hrow, ih, List.length_cons]
    omega

/-- The mark of the head stands behind the row of number zero. -/
theorem count_bodyLines_mark (rows : List (List String)) (first : Nat) :
    (bodyLines rows first).count "\\endhead" = if rows ≠ [] ∧ first = 0 then 1 else 0 := by
  have hrow : ∀ cells : List String, rowLine cells ≠ "\\endhead" :=
    fun cells => rowLine_ne (by decide) cells
  induction rows generalizing first with
  | nil => rfl
  | cons row rows ih =>
    rw [bodyLines_cons, List.count_append, ih]
    by_cases hfirst : first = 0 <;> simp [rowLines, hrow, hfirst]

/-- Around the rows there are no rules. -/
theorem count_tableLines {rule : String} (hrule : rule ∈ ["\\bottomrule", "\\toprule", "\\endhead"])
    (columns : List String) (rows : List (List String)) :
    (tableLines columns rows).count rule = (bodyLines rows 0).count rule := by
  have hfoot : ∀ rule ∈ ["\\bottomrule", "\\toprule", "\\endhead"],
      rule.toList.getLast? ≠ some '\x7d' ∧ footLines.count rule = 0 := by decide
  obtain ⟨hhead, hfoot⟩ := hfoot rule hrule
  rw [tableLines, List.count_append, List.count_cons_of_ne (headLine_ne hhead columns), hfoot,
    Nat.add_zero]

/-! ### Reading a table back -/

/-- The cells of a row stand between its ampersands, each with a blank on either side. -/
theorem padded_intercalate {cells : List String} (hne : cells ≠ []) :
    " " ++ String.intercalate " & " cells ++ " "
      = String.intercalate "&" (cells.map fun cell => " " ++ cell ++ " ") := by
  induction cells with
  | nil => exact absurd rfl hne
  | cons cell cells ih =>
    by_cases hlast : cells = []
    · simp [hlast]
    · rw [String.intercalate_cons_of_ne_nil hlast, List.map_cons,
        String.intercalate_cons_of_ne_nil (by simpa using hlast), ← ih hlast]
      have hseparator : " & " = " " ++ "&" ++ " " := rfl
      simp only [hseparator, String.append_assoc]

theorem pieces_padded {cells : List String} (hne : cells ≠ [])
    (h : ∀ cell ∈ cells, '&' ∉ cell.toList) :
    pieces '&' (" " ++ String.intercalate " & " cells ++ " ")
      = cells.map fun cell => " " ++ cell ++ " " := by
  rw [padded_intercalate hne]
  apply pieces_intercalate
  · simpa using hne
  · simpa using h

theorem rowLine_inj {cells cells' : List String} (hne : cells ≠ []) (hne' : cells' ≠ [])
    (h : ∀ cell ∈ cells, '&' ∉ cell.toList) (h' : ∀ cell ∈ cells', '&' ∉ cell.toList)
    (heq : rowLine cells = rowLine cells') : cells = cells' := by
  have hjoined : String.intercalate " & " cells = String.intercalate " & " cells' := by
    simpa [rowLine] using heq
  -- One text, split at its ampersands, is both lists of cells.
  have hpieces := pieces_padded hne h
  rw [hjoined, pieces_padded hne' h'] at hpieces
  exact ((List.map_inj_right (fun _ _ => framed_inj)).mp hpieces).symm

/-- The types of the columns stand between the bars. -/
theorem columnTypes_eq (columns : List String) :
    columnTypes columns
      = String.intercalate "|" ("" :: (columns.map fun column => "  " ++ column ++ " ") ++ [" "]) := by
  have htypes : ∀ columns : List String,
      " " ++ String.join (columns.map fun column => " " ++ column ++ " | ")
        = String.intercalate "|" ((columns.map fun column => "  " ++ column ++ " ") ++ [" "]) := by
    intro columns
    induction columns with
    | nil => rfl
    | cons column columns ih =>
      have hbar : " | " = " " ++ "|" ++ " " := rfl
      have hblank : "  " = " " ++ " " := rfl
      rw [List.map_cons, String.join_cons, List.map_cons, List.cons_append,
        String.intercalate_cons_of_ne_nil (by simp), ← ih]
      simp only [hbar, hblank, String.append_assoc]
  rw [List.cons_append, String.intercalate_cons_of_ne_nil (by simp), ← htypes, columnTypes]
  have hbar : "| " = "|" ++ " " := rfl
  simp only [hbar, String.append_assoc, String.empty_append]

theorem columnTypes_inj {columns columns' : List String}
    (h : ∀ column ∈ columns, '|' ∉ column.toList) (h' : ∀ column ∈ columns', '|' ∉ column.toList)
    (heq : columnTypes columns = columnTypes columns') : columns = columns' := by
  have hpieces : ∀ {types : List String}, (∀ column ∈ types, '|' ∉ column.toList) →
      pieces '|' (columnTypes types)
        = "" :: (types.map fun column => "  " ++ column ++ " ") ++ [" "] := by
    intro types htypes
    rw [columnTypes_eq]
    refine pieces_intercalate (by simp) fun text htext => ?_
    simp only [List.cons_append, List.mem_cons, List.mem_append, List.mem_map,
      List.not_mem_nil, or_false] at htext
    rcases htext with rfl | ⟨column, hcolumn, rfl⟩ | rfl
    · decide
    · simpa using htypes column hcolumn
    · decide
  have hread := hpieces h
  rw [heq, hpieces h'] at hread
  rw [List.cons_append, List.cons_append, List.cons.injEq, List.append_cancel_right_eq,
    List.map_inj_right (fun _ _ => framed_inj)] at hread
  exact hread.2.symm

theorem bodyLines_inj {rows rows' : List (List String)} {first : Nat}
    (h : ∀ row ∈ rows, row ≠ [] ∧ ∀ cell ∈ row, '&' ∉ cell.toList)
    (h' : ∀ row ∈ rows', row ≠ [] ∧ ∀ cell ∈ row, '&' ∉ cell.toList)
    (heq : bodyLines rows first ++ footLines = bodyLines rows' first ++ footLines) :
    rows = rows' := by
  induction rows generalizing rows' first with
  | nil =>
    cases rows' with
    | nil => rfl
    | cons row' rows' =>
      -- A further row begins with a rule, and what closes a table with an empty line.
      rw [bodyLines_cons] at heq
      simp [bodyLines, rowLines, footLines] at heq
  | cons row rows ih =>
    cases rows' with
    | nil =>
      rw [bodyLines_cons] at heq
      simp [bodyLines, rowLines, footLines] at heq
    | cons row' rows' =>
      obtain ⟨hrow, hrows⟩ := List.forall_mem_cons.mp h
      obtain ⟨hrow', hrows'⟩ := List.forall_mem_cons.mp h'
      rw [bodyLines_cons, bodyLines_cons] at heq
      simp only [rowLines, List.cons_append, List.append_assoc, List.cons.injEq, true_and,
        List.nil_append, List.append_cancel_left_eq] at heq
      rw [rowLine_inj hrow.1 hrow'.1 hrow.2 hrow'.2 heq.1, ih hrows hrows' heq.2]

/-- A row that fits at least one column has a cell. -/
theorem ne_nil_of_fits {columns row : List String} (hcolumns : columns ≠ [])
    (h : row.length = columns.length) : row ≠ [] := by
  rintro rfl
  exact hcolumns (List.length_eq_zero_iff.mp h.symm)

/-- **The lines of a legible table say what is in it.** -/
theorem tableLines_inj {columns columns' : List String} {rows rows' : List (List String)}
    (hcolumns : columns ≠ []) (hcolumns' : columns' ≠ []) (h : Legible columns rows)
    (h' : Legible columns' rows') (hrows : ∀ row ∈ rows, row.length = columns.length)
    (hrows' : ∀ row ∈ rows', row.length = columns'.length)
    (heq : tableLines columns rows = tableLines columns' rows') :
    columns = columns' ∧ rows = rows' := by
  rw [tableLines, tableLines, List.cons_append, List.cons_append, List.cons.injEq] at heq
  obtain ⟨hhead, hbody⟩ := heq
  constructor
  · rw [headLine_eq, headLine_eq] at hhead
    exact columnTypes_inj (fun column hcolumn => (h.columns column hcolumn).1)
      (fun column hcolumn => (h'.columns column hcolumn).1) (framed_inj hhead)
  · refine bodyLines_inj (fun row hrow => ⟨?_, fun cell hcell => (h.cells row hrow cell hcell).1⟩)
      (fun row hrow => ⟨?_, fun cell hcell => (h'.cells row hrow cell hcell).1⟩) hbody
    · exact ne_nil_of_fits hcolumns (hrows row hrow)
    · exact ne_nil_of_fits hcolumns' (hrows' row hrow)

/-! ## Tables -/

theorem table_ok_iff {columns : List String} {rows : List (List String)} {fragment : Fragment} :
    table columns rows = .ok fragment ↔
      columns ≠ [] ∧ (∀ row ∈ rows, row.length = columns.length) ∧
        fragment = String.intercalate "\n" (tableLines columns rows) := by
  constructor
  · intro h
    have hcolumns : columns ≠ [] := by
      intro hempty
      have herror : table columns rows = .error .noColumns :=
        table_error_iff.mpr (.inl ⟨hempty, rfl⟩)
      cases h.symm.trans herror
    have hrows : ∀ row ∈ rows, row.length = columns.length := by
      rw [← misfit?_eq_none_iff]
      cases hmisfit : misfit? columns.length rows with
      | none => rfl
      | some entry =>
        obtain ⟨row, hrow, -, hwidth, hbefore⟩ := misfit?_eq_some_iff.mp hmisfit
        have herror := table_error_iff.mpr
          (.inr ⟨hcolumns, entry.1, row, hrow, hwidth, hbefore, rfl⟩)
        cases h.symm.trans herror
    refine ⟨hcolumns, hrows, ?_⟩
    rw [table_eq_lines hcolumns hrows] at h
    exact (Except.ok.inj h).symm
  · rintro ⟨hcolumns, hrows, rfl⟩
    exact table_eq_lines hcolumns hrows

theorem table_isOk_iff {columns : List String} {rows : List (List String)} :
    (table columns rows).isOk = true ↔
      columns ≠ [] ∧ ∀ row ∈ rows, row.length = columns.length := by
  constructor
  · intro h
    cases htable : table columns rows with
    | ok fragment =>
      obtain ⟨hcolumns, hrows, -⟩ := table_ok_iff.mp htable
      exact ⟨hcolumns, hrows⟩
    | error e =>
      rw [htable] at h
      cases h
  · rintro ⟨hcolumns, hrows⟩
    rw [table_eq_lines hcolumns hrows]
    rfl

/-- **A table loses no cell, adds none and moves none.** It is refused for having no column, or
else for the first row of another width, and for nothing else. The lines of a legible table
are those of its rows in order, each between two rules, with the mark of the head behind the
first of them; no cell can be taken for a rule or for the mark. Two legible tables that are
the same fragment have the same columns and the same rows. A document adds the fragment to
its body as it is, and passes the refusal on. -/
theorem tables_keep_their_cells :
    (∀ (columns : List String) (rows : List (List String)),
      ((table columns rows).isOk = true ↔
        columns ≠ [] ∧ ∀ row ∈ rows, row.length = columns.length) ∧
      ∀ e, table columns rows = .error e ↔
        (columns = [] ∧ e = .noColumns) ∨
        (columns ≠ [] ∧ ∃ i row, rows[i]? = some row ∧ row.length ≠ columns.length ∧
          (∀ j < i, ∀ other, rows[j]? = some other → other.length = columns.length) ∧
          e = .rowWidth i columns.length row.length)) ∧
    (∀ (columns : List String) (rows : List (List String)) (fragment : Fragment),
      Legible columns rows → table columns rows = .ok fragment →
        lines fragment = tableLines columns rows ∧
        (lines fragment).count "\\bottomrule" = rows.length ∧
        (lines fragment).count "\\toprule" = rows.length ∧
        (lines fragment).count "\\endhead" = if rows = [] then 0 else 1) ∧
    (∀ (columns columns' : List String) (rows rows' : List (List String)) (fragment : Fragment),
      Legible columns rows → Legible columns' rows' →
        table columns rows = .ok fragment → table columns' rows' = .ok fragment →
        columns = columns' ∧ rows = rows') ∧
    ∀ (d : Document) (columns : List String) (rows : List (List String)),
      (Operation.table columns rows).run.on d
        = match table columns rows with
          | .ok fragment => (.ok .done, { d with buffer := d.buffer.append .body fragment })
          | .error e => (.error (.validation e), d) := by
  refine ⟨fun columns rows => ⟨table_isOk_iff, fun e => table_error_iff⟩, ?_, ?_,
    fun d columns rows => ?_⟩
  · intro columns rows fragment hlegible htable
    obtain ⟨-, -, rfl⟩ := table_ok_iff.mp htable
    rw [lines_tableLines hlegible, count_tableLines (by decide), count_tableLines (by decide),
      count_tableLines (by decide), count_bodyLines_rule (.inl rfl),
      count_bodyLines_rule (.inr rfl), count_bodyLines_mark]
    refine ⟨rfl, rfl, rfl, ?_⟩
    by_cases hrows : rows = [] <;> simp [hrows]
  · intro columns columns' rows rows' fragment hlegible hlegible' htable htable'
    obtain ⟨hcolumns, hrows, hfragment⟩ := table_ok_iff.mp htable
    obtain ⟨hcolumns', hrows', hfragment'⟩ := table_ok_iff.mp htable'
    -- Equal fragments have equal lines, which are those of the two tables.
    have hlines : tableLines columns rows = tableLines columns' rows' := by
      rw [← lines_tableLines hlegible, ← lines_tableLines hlegible', ← hfragment, ← hfragment']
    exact tableLines_inj hcolumns hcolumns' hlegible hlegible' hrows hrows' hlines
  · rw [Operation.run_on, Operation.effect]
    cases table columns rows <;> rfl

/-- Cells that are spelt like rules or end in a backslash are cells, and a blank that moves from
one cell to the next makes another table. -/
theorem cells_like_rules_are_cells :
    let columns := ["Y", "p\x7b3cm\x7d"]
    let rows := [["\\endhead", ""], ["a\\", " \\toprule"]]
    let moved := [["\\endhead", ""], ["a\\ ", "\\toprule"]]
    Legible columns rows ∧ Legible columns moved ∧
      (∃ fragment, table columns rows = .ok fragment ∧
        (lines fragment).count "\\endhead" = 1 ∧ (lines fragment).count "\\toprule" = 2) ∧
      table columns rows ≠ table columns moved := by
  intro columns rows moved
  have hlegible : Legible columns rows := ⟨by decide, by decide⟩
  have hmoved : Legible columns moved := ⟨by decide, by decide⟩
  obtain ⟨-, hlines, hinj, -⟩ := tables_keep_their_cells
  have hfragment : table columns rows = .ok _ := table_eq_lines (by decide) (by decide)
  obtain ⟨-, -, htop, hmark⟩ := hlines columns rows _ hlegible hfragment
  refine ⟨hlegible, hmoved, ⟨_, hfragment, hmark, htop⟩, fun h => ?_⟩
  have hrows := (hinj columns columns rows moved _ hlegible hmoved hfragment (h ▸ hfragment)).2
  exact absurd hrows (by decide)

end Galley.Construct

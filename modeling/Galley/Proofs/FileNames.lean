/-
`Proofs/FileNames.lean` -- where the files of a job stand, and how an engine takes its source.

All files of a job have its name before their ending. A name that the check of the settings
lets through has no slash and does not begin with a dot, so that such a file stands in the
directory of its run and nowhere else, and no two of them are one file. The name can begin
with a hyphen, though. The source file is the last word of the command line, and an engine
takes a word that begins with a hyphen for an option: such a job is accepted, and its engine
is given no source file.
-/
import Galley.Proofs.Acceptance

set_option autoImplicit false

namespace Galley

/-! ## Plain names -/

namespace Host

/-- A path that is one name, and not one of those that stand for a directory. -/
structure IsPlainName (name : String) : Prop where
  ne_empty : name ≠ ""
  slash_not_mem : '/' ∉ name.toList
  ne_dot : name ≠ "."
  ne_parent : name ≠ ".."

variable {name : String}

theorem components_of_slash_not_mem (h : '/' ∉ name.toList) : components name = [name] := by
  have hsplit : List.splitOn '/' (['/'].intercalate [name.toList]) = [name.toList] :=
    List.splitOn_intercalate '/' (by simpa using h) (List.cons_ne_nil _ _)
  rw [List.intercalate_singleton] at hsplit
  rw [components, hsplit, List.map_singleton, String.ofList_toList]

theorem fullPath_of_slash_not_mem (h : '/' ∉ name.toList) (host : Host) :
    host.fullPath name = pathOf host.workingDirectory ++ "/" ++ name := by
  have hrelative : ¬ isAbsolute name = true := by
    rw [isAbsolute, beq_iff_eq]
    exact fun hhead => h (List.mem_of_mem_head? hhead)
  rw [fullPath, if_neg hrelative]

/-- A plain name leads one step down from a directory, unless it is too long for any file. -/
theorem IsPlainName.walk (h : IsPlainName name) {host : Host} {place : Place}
    (hplace : host.entry? place = some .directory) (hlength : name.utf8ByteSize ≤ maxNameLength) :
    (components name).foldlM host.step place = .ok (place ++ [name]) := by
  have hstep : host.step place name = .ok (place ++ [name]) := by
    rw [step, hplace]
    simp only
    rw [if_neg (not_or.mpr ⟨h.ne_empty, h.ne_dot⟩), if_neg h.ne_parent,
      if_neg (Nat.not_lt.mpr hlength)]
  rw [components_of_slash_not_mem h.slash_not_mem, List.foldlM_cons, hstep]
  rfl

end Host

/-! ## The files of a job -/

namespace EngineSettings

open Host

/-- An engine takes a word of its command line for an option. -/
def IsOption (word : String) : Prop := word.toList.head? = some '-'

variable {name ending : String}

theorem IsJobCharacter.ne_slash {c : Char} (h : IsJobCharacter c) : c ≠ '/' := by
  rintro rfl
  revert h
  unfold IsJobCharacter
  decide

theorem IsJobCharacter.ne_dot {c : Char} (h : IsJobCharacter c) : c ≠ '.' := by
  rintro rfl
  revert h
  unfold IsJobCharacter
  decide

theorem IsStem.exists_head (h : IsStem name) :
    ∃ c, name.toList.head? = some c ∧ IsJobCharacter c := by
  have hne : name.toList ≠ [] := mt String.toList_eq_nil_iff.mp h.1
  exact ⟨_, List.head?_eq_some_head hne, h.2 _ (List.head_mem hne)⟩

/-- The first character of a file is that of its job. -/
theorem IsStem.head?_append (h : IsStem name) (ending : String) :
    (name ++ ending).toList.head? = name.toList.head? := by
  obtain ⟨c, hc, -⟩ := h.exists_head
  rw [String.toList_append, List.head?_append, hc, Option.some_or]

/-- The first character already tells a file from a directory. -/
theorem IsStem.isPlainName_append (h : IsStem name) (hending : '/' ∉ ending.toList) :
    IsPlainName (name ++ ending) := by
  obtain ⟨c, hc, hcharacter⟩ := h.exists_head
  have hhead : (name ++ ending).toList.head? = some c := (h.head?_append ending).trans hc
  have hne : ∀ other : String, other.toList.head? ≠ some c → name ++ ending ≠ other := by
    rintro other hother rfl
    exact hother hhead
  have hdot : some '.' ≠ some c := fun heq => hcharacter.ne_dot (Option.some.inj heq).symm
  refine ⟨hne "" nofun, ?_, hne "." hdot, hne ".." hdot⟩
  rw [String.toList_append, List.mem_append, not_or]
  exact ⟨fun hmem => (h.2 _ hmem).ne_slash rfl, hending⟩

/-- The files that a run of the settings has. -/
def files (s : EngineSettings) (format : BinaryFormat) : List String :=
  [s.sourceFile, s.logFile, s.artifactFile format]

theorem exists_ending {s : EngineSettings} {format : BinaryFormat} {file : String}
    (h : file ∈ s.files format) : ∃ ending, '/' ∉ ending.toList ∧ file = s.jobName ++ ending := by
  rw [files, List.mem_cons, List.mem_cons, List.mem_singleton] at h
  rcases h with rfl | rfl | rfl
  · exact ⟨".tex", by decide, rfl⟩
  · exact ⟨".log", by decide, rfl⟩
  · refine ⟨"." ++ format.name, by cases format <;> decide, ?_⟩
    rw [artifactFile, String.append_assoc]

theorem nodup_files (s : EngineSettings) (format : BinaryFormat) : (s.files format).Nodup := by
  have hfiles : s.files format
      = [".tex", ".log", "." ++ format.name].map (s.jobName ++ ·) := by
    rw [files, artifactFile, String.append_assoc]
    rfl
  have hendings : [".tex", ".log", "." ++ format.name].Nodup := by cases format <;> decide
  rw [hfiles]
  exact hendings.map fun a b h => String.append_right_inj _ |>.mp h

theorem getLast?_commandLine (s : EngineSettings) (format : BinaryFormat) :
    (s.commandLine format).getLast? = some s.sourceFile := List.getLast?_concat

/-- **The files of an accepted job.** Whatever the other arguments are, the source, the log and
the artifact are three files of the directory of the run: each is one name, which leads from
any directory to that name in it. The last word of the command line is the source file, and
the engine takes it for a file exactly if the job's name does not begin with a hyphen. -/
theorem source_is_taken_for_a_file_iff {s : EngineSettings}
    (h : PressConfig.checkEngine s = .ok ()) (format : BinaryFormat) :
    (s.files format).Nodup ∧
    (∀ file ∈ s.files format, IsPlainName file ∧ ∀ host : Host,
      host.fullPath file = pathOf host.workingDirectory ++ "/" ++ file ∧
      ∀ place, host.entry? place = some .directory → file.utf8ByteSize ≤ maxNameLength →
        (components file).foldlM host.step place = .ok (place ++ [file])) ∧
    (s.commandLine format).getLast? = some s.sourceFile ∧
    (¬ IsOption s.sourceFile ↔ s.jobName.toList.head? ≠ some '-') := by
  have hstem : IsStem s.jobName := (s.checkEngine_ok_iff.mp h).name
  refine ⟨s.nodup_files format, fun file hfile => ?_, s.getLast?_commandLine format, ?_⟩
  · obtain ⟨ending, hending, rfl⟩ := exists_ending hfile
    have hplain := hstem.isPlainName_append hending
    exact ⟨hplain, fun host => ⟨fullPath_of_slash_not_mem hplain.slash_not_mem host,
      fun place hplace hlength => hplain.walk hplace hlength⟩⟩
  · rw [IsOption, sourceFile, hstem.head?_append]

/-- A name of all kinds of characters, with arguments that look like other files. -/
theorem underscored_source_is_a_file :
    let s : EngineSettings := { jobName := "_a-Z9", arguments := ["-draft", "_a-Z9.log"] }
    PressConfig.checkEngine s = .ok () ∧
      (s.commandLine .dvi).getLast? = some "_a-Z9.tex" ∧ ¬ IsOption "_a-Z9.tex" := by
  intro s
  have hcheck : PressConfig.checkEngine s = .ok () := by decide
  obtain ⟨-, -, hlast, hoption⟩ := source_is_taken_for_a_file_iff hcheck .dvi
  exact ⟨hcheck, hlast, hoption.mpr (by decide)⟩

/-- A job that passes every check, and an engine that is given one more option for its source. -/
theorem hyphenated_source_is_an_option :
    let c : PressConfig := { engine := { jobName := "-shell-escape" } }
    c.check = .ok () ∧ (c.engine.commandLine .pdf).getLast? = some "-shell-escape.tex" ∧
      IsOption "-shell-escape.tex" := by
  intro c
  have hengine : PressConfig.checkEngine c.engine = .ok () := by decide
  have hdocument : c.checkDocument = .ok (Document.opened {} []) := by
    rw [PressConfig.checkDocument, Document.new_default]
    rfl
  refine ⟨?_, rfl, rfl⟩
  rw [PressConfig.check, hengine, hdocument]
  rfl

end EngineSettings

end Galley

/-
Assembling, assembling strictly and diagnosing.

A text is read in three ways. Assembling keeps every statement, transfer or not, and refuses a text only if it has none.
Strict assembling stops at the first statement that is no transfer, and diagnosing lists all of these. The three look at
a statement at different moments: diagnosing and strict assembling as it stands on its line, an assembled program after
trimming it once more. Decoding does not see the difference, so the three agree.

Contents:
- `map_getElem?_filter_zipIdx`: the entries at the places of some entries;
- `Program.map_statement?_unknowns`: the statements at the places of the unknown ones;
- `mem_diagnose_iff`, `pairwise_line_diagnose`: what is diagnosed, and in which order;
- `Program.sources_unknown_of_assemble`: the unknown statements of a program are the ones that are diagnosed;
- `Program.assembleStrict_eq_ok_iff`, `Program.assembleStrict_eq_error_iff`: strict assembling by what is diagnosed.

Main statement:
- `Program.assembling_agrees_with_diagnosing`: how the three fit together, on every text.
-/
import ByteMachine.Proofs.MicroOp.Canonical
import ByteMachine.Proofs.Program.Statements

namespace ByteMachine

variable {source : String}

/-! ## Places -/

/-- at the places of the entries that pass a test are the entries that pass it, in the same order -/
theorem map_getElem?_filter_zipIdx {α : Type} (test : α → Bool) (l : List α) :
    ((l.zipIdx.filter fun entry => test entry.1).map Prod.snd).map (l[·]?) = (l.filter test).map some := by
  have hget : ∀ entry ∈ l.zipIdx.filter (fun entry => test entry.1), l[entry.2]? = some entry.1 := by
    intro entry he
    exact List.mk_mem_zipIdx_iff_getElem?.1 (List.mem_filter.1 he).1
  calc ((l.zipIdx.filter fun entry => test entry.1).map Prod.snd).map (l[·]?)
      = (l.zipIdx.filter fun entry => test entry.1).map fun entry => l[entry.2]? := List.map_map
    _ = (l.zipIdx.filter fun entry => test entry.1).map fun entry => some entry.1 := List.map_congr_left hget
    _ = ((l.zipIdx.filter (test ∘ Prod.fst)).map Prod.fst).map some := List.map_map.symm
    _ = (l.filter test).map some := by rw [← List.filter_map, List.zipIdx_map_fst]

/-- the statements at the places of the unknown ones are the unknown statements -/
theorem Program.map_statement?_unknowns (p : Program) :
    p.unknowns.map p.statement? = (p.statements.filter fun s => s.op.isUnknown).map some :=
  map_getElem?_filter_zipIdx (fun s : Statement => s.op.isUnknown) p.statements

/-! ## Diagnosing -/

theorem mem_diagnose_iff {d : SourceStatement} :
    d ∈ diagnose source ↔ OnLine source d ∧ (MicroOp.decode d.text).isUnknown = true := by
  rw [diagnose, List.mem_filter, mem_statementsOf_iff, SourceStatement.isUnknown]

theorem pairwise_line_diagnose (source : String) : (diagnose source).Pairwise fun d e => d.line < e.line :=
  (pairwise_line_statementsOf source).filter _

theorem find?_isUnknown_statementsOf (source : String) :
    (statementsOf source).find? SourceStatement.isUnknown = (diagnose source).head? :=
  List.head?_filter.symm

namespace Program

/-! ## Assembling -/

theorem isUnknown_op_ofText (s : SourceStatement) : (Statement.ofText s.text).op.isUnknown = s.isUnknown :=
  congrArg MicroOp.isUnknown (Statement.op_ofText s.text)

/-- the unknown statements of the program are the ones that are diagnosed -/
theorem sources_unknown_of_assemble {p : Program} (h : assemble source = .ok p) :
    (p.statements.filter fun s => s.op.isUnknown).map Statement.source =
      (diagnose source).map SourceStatement.text := by
  obtain ⟨-, rfl⟩ := assemble_eq_ok_iff.1 h
  have hunknown : (statementsOf source).filter (fun s => (Statement.ofText s.text).op.isUnknown) = diagnose source :=
    congrArg (fun test => (statementsOf source).filter test) (funext isUnknown_op_ofText)
  have hsource : ∀ s ∈ diagnose source, (Statement.ofText s.text).source = s.text := by
    intro s hs
    rw [diagnose, List.mem_filter] at hs
    exact source_ofText_of_mem hs.1
  have hstatements : (ofTexts ((statementsOf source).map SourceStatement.text)).statements =
      (statementsOf source).map fun s => Statement.ofText s.text := by
    rw [ofTexts, List.map_map]
    rfl
  rw [hstatements, List.filter_map, List.map_map, Function.comp_def, Function.comp_def, hunknown]
  exact List.map_congr_left hsource

theorem sources?_unknowns_of_assemble {p : Program} (h : assemble source = .ok p) :
    p.unknowns.map (p.sources[·]?) = (diagnose source).map fun d => some d.text := by
  calc p.unknowns.map (p.sources[·]?)
      = (p.unknowns.map p.statement?).map (Option.map Statement.source) := by
        simp [sources, statement?, Function.comp_def]
    _ = ((p.statements.filter fun s => s.op.isUnknown).map Statement.source).map some := by
        rw [map_statement?_unknowns, List.map_map, List.map_map]
        rfl
    _ = ((diagnose source).map SourceStatement.text).map some := by rw [sources_unknown_of_assemble h]
    _ = (diagnose source).map fun d => some d.text := List.map_map

/-! ## Assembling strictly -/

theorem assembleStrict_of_diagnose_nil (h : diagnose source = []) : assembleStrict source = assemble source := by
  rw [assembleStrict, find?_isUnknown_statementsOf, h]
  rfl

theorem assembleStrict_of_diagnose_head {d : SourceStatement} (h : (diagnose source).head? = some d) :
    assembleStrict source = .error (.unknownStatement d) := by
  rw [assembleStrict, find?_isUnknown_statementsOf, h]

/-- a text without statements has nothing to diagnose -/
theorem diagnose_eq_nil_of_statementsOf (h : statementsOf source = []) : diagnose source = [] := by
  rw [diagnose, h]
  rfl

theorem assembleStrict_eq_ok_iff {p : Program} :
    assembleStrict source = .ok p ↔ assemble source = .ok p ∧ diagnose source = [] := by
  cases hd : (diagnose source).head? with
  | none =>
    have hnil : diagnose source = [] := List.head?_eq_none_iff.1 hd
    rw [assembleStrict_of_diagnose_nil hnil]
    exact (and_iff_left hnil).symm
  | some d =>
    have hne : diagnose source ≠ [] := fun hnil => by simp [hnil] at hd
    rw [assembleStrict_of_diagnose_head hd]
    exact iff_of_false (fun h => nomatch h) fun h => hne h.2

theorem assembleStrict_eq_error_iff {e : AssemblyError} :
    assembleStrict source = .error e ↔
      (e = .empty ∧ statementsOf source = []) ∨
        ∃ d, (diagnose source).head? = some d ∧ e = .unknownStatement d := by
  cases hd : (diagnose source).head? with
  | none =>
    rw [assembleStrict_of_diagnose_nil (List.head?_eq_none_iff.1 hd), assemble_eq_error_iff]
    simp
  | some d =>
    have hne : statementsOf source ≠ [] := fun hnil => by
      simp [diagnose_eq_nil_of_statementsOf hnil] at hd
    rw [assembleStrict_of_diagnose_head hd]
    simp [hne, eq_comm]

/-! ## How the three fit together -/

/-- **Assembling, strict assembling and diagnosing agree** on every text.
1. Assembling fails exactly on texts that have nothing on any line, and says so.
2. What is diagnosed is what is on a line and decodes to no transfer,
3. from the first line to the last.
4. These are the statements at the unknown places of the program, in the same order and with the same texts.
5. Strict assembling gives a program exactly if there is nothing to diagnose, and it is the same program.
6. Else it says that the text is empty or, if it is not, what is diagnosed first. -/
theorem assembling_agrees_with_diagnosing (source : String) :
    (∀ e, assemble source = .error e ↔ e = .empty ∧ ∀ line ∈ Text.lines source.toList, bare line = []) ∧
    (∀ d, d ∈ diagnose source ↔ OnLine source d ∧ (MicroOp.decode d.text).isUnknown = true) ∧
    ((diagnose source).map SourceStatement.line).Pairwise (· < ·) ∧
    (∀ p, assemble source = .ok p →
      p.unknowns.map (p.sources[·]?) = (diagnose source).map fun d => some d.text) ∧
    (∀ p, assembleStrict source = .ok p ↔ assemble source = .ok p ∧ diagnose source = []) ∧
    (∀ e, assembleStrict source = .error e ↔
      (e = .empty ∧ ∀ line ∈ Text.lines source.toList, bare line = []) ∨
        ∃ d, (diagnose source).head? = some d ∧ e = .unknownStatement d) := by
  refine ⟨fun e => ?_, fun d => mem_diagnose_iff, ?_, fun p => sources?_unknowns_of_assemble,
    fun p => assembleStrict_eq_ok_iff, fun e => ?_⟩
  · rw [assemble_eq_error_iff, statementsOf_eq_nil_iff]
  · exact List.pairwise_map.2 (pairwise_line_diagnose source)
  · rw [assembleStrict_eq_error_iff, statementsOf_eq_nil_iff]

/-- both line ends, blanks beyond ASCII, a carriage return and a slash inside a statement, comments of all three kinds,
and two statements that are no transfers -/
def mixedText : String :=
  "A <- R1\r\n; one\n\u3000A <- Rx\u0085 // two\r\n\n#\nfoo\r/ bar ; # baz\n"

theorem assembling_agrees_on_mixedText :
    assemble mixedText = .ok (ofTexts ["A <- R1", "A <- Rx", "foo\r/ bar"]) ∧
      (ofTexts ["A <- R1", "A <- Rx", "foo\r/ bar"]).unknowns = [1, 2] ∧
      diagnose mixedText = [⟨3, "A <- Rx"⟩, ⟨6, "foo\r/ bar"⟩] ∧
      [1, 2].map ((ofTexts ["A <- R1", "A <- Rx", "foo\r/ bar"]).sources[·]?) =
        [⟨3, "A <- Rx"⟩, ⟨6, "foo\r/ bar"⟩].map (fun d : SourceStatement => some d.text) ∧
      assembleStrict mixedText = .error (.unknownStatement ⟨3, "A <- Rx"⟩) := by
  have hassemble : assemble mixedText = .ok (ofTexts ["A <- R1", "A <- Rx", "foo\r/ bar"]) := by decide +kernel
  have hunknowns : (ofTexts ["A <- R1", "A <- Rx", "foo\r/ bar"]).unknowns = [1, 2] := by decide +kernel
  have hdiagnose : diagnose mixedText = [⟨3, "A <- Rx"⟩, ⟨6, "foo\r/ bar"⟩] := by decide +kernel
  obtain ⟨-, -, -, hplaces, -, hstrict⟩ := assembling_agrees_with_diagnosing mixedText
  have htexts := hplaces _ hassemble
  rw [hunknowns, hdiagnose] at htexts
  refine ⟨hassemble, hunknowns, hdiagnose, htexts, (hstrict _).2 (.inr ⟨⟨3, "A <- Rx"⟩, ?_, rfl⟩)⟩
  rw [hdiagnose]
  rfl

end Program

end ByteMachine

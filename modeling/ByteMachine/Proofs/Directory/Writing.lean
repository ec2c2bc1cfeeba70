/-
Where a text can be put, another one can be put first.

A path leads to its place through folders that are there, and a new text takes none of them away. Nor does it make a
folder where there was none: every place above the new text was walked through on the way to it.

Contents:
- `Directory.Writable`: a text can be put where the path leads;
- `Directory.Walked`: every place on the way is there;
- `target_eq_ok_iff`: the places where a text can be put.

Main statement: `Writable.write` (a path stays writable when a text is put elsewhere, or there).
-/
import Mathlib.Tactic
import ByteMachine.Directory

namespace ByteMachine.Directory

/-- a text can be put where the path leads -/
def Writable (d : Directory) (path : String) : Prop :=
  ∃ place, d.target (.ofText path) = .ok place

theorem Writable.exists_write {d : Directory} {path : String} (h : d.Writable path) (content : String) :
    ∃ d', d.write path content = .ok d' := by
  obtain ⟨place, hp⟩ := h
  exact ⟨_, (write_eq_ok_iff ..).2 ⟨place, hp, rfl⟩⟩

/-! ## Places on the way -/

/-- the place and every place above it are there -/
def Walked (d : Directory) (place : List String) : Prop :=
  ∀ above, above <+: place → (d.look? above).isSome = true

theorem isSome_look?_of_isFolder {d : Directory} {place : List String} (h : d.isFolder place = true) :
    (d.look? place).isSome = true := by
  unfold look?
  cases d.entries.lookup place with
  | some e => rfl
  | none => simp [h]

theorem walked_start (d : Directory) (path : String) : d.Walked (Path.ofText path).start := by
  intro place hp
  refine isSome_look?_of_isFolder ?_
  have hall : ∀ n ∈ place, n = Path.root := fun n hn => by
    have hm := hp.subset hn
    unfold Path.ofText at hm
    dsimp only at hm
    split_ifs at hm
    · simpa using hm
    · simp at hm
  simp only [isFolder, Bool.or_eq_true, List.all_eq_true]
  exact .inl fun n hn => by simp [hall n hn]

theorem Walked.enter {d : Directory} {place next : List String} {name : String} (h : d.Walked place)
    (he : d.enter place name = .ok next) : d.Walked next := by
  obtain ⟨hf, hl⟩ := (enter_eq_ok_iff ..).1 he
  obtain ⟨-, hs, rfl⟩ := (follow_eq_ok_iff ..).1 hf
  -- one name further there is one more place, and it was looked up
  have further : ∀ n, (d.look? (place ++ [n])).isSome = true → d.Walked (place ++ [n]) := fun n hn p hp => by
    rcases List.prefix_concat_iff.1 hp with rfl | hp
    · exact hn
    · exact h p hp
  unfold Path.descend Path.parent at hs ⊢
  split_ifs at hs ⊢
  · exact h
  · exact further _ hs
  · exact h
  · exact fun p hp => h p (hp.trans (List.dropLast_prefix place))
  · exact further _ hs

theorem Walked.foldlM {d : Directory} {names start place : List String} (h : d.Walked start)
    (hf : names.foldlM d.enter start = .ok place) : d.Walked place := by
  induction names generalizing start with
  | nil =>
    cases hf
    exact h
  | cons name names ih =>
    rw [List.foldlM_cons] at hf
    cases hn : d.enter start name with
    | error e => rw [hn] at hf; cases hf
    | ok next =>
      rw [hn] at hf
      exact ih (h.enter hn) hf

theorem walked_holder {d : Directory} {path : String} {folder : List String}
    (h : d.holder (.ofText path) = .ok folder) : d.Walked folder := by
  unfold holder at h
  cases hc : (Path.ofText path).check with
  | error e => rw [hc] at h; cases h
  | ok _ =>
    rw [hc] at h
    exact (d.walked_start path).foldlM h

/-! ## Places for texts -/

/-- a text can be put under a proper name, in a folder that the path leads to, where there is no folder -/
theorem target_eq_ok_iff (d : Directory) (p : Path) (place : List String) :
    d.target p = .ok place ↔
      ∃ folder name, d.holder p = .ok folder ∧ p.names.getLast? = some name ∧
        (p.isFolder = false ∧ name ≠ Path.here ∧ name ≠ Path.above ∧ name.utf8ByteSize ≤ Path.nameLimit) ∧
        place = folder ++ [name] ∧ d.look? place ≠ some .folder := by
  constructor
  · intro h
    unfold target at h
    cases hf : d.holder p with
    | error e => rw [hf] at h; cases h
    | ok folder =>
      cases hg : p.names.getLast? with
      | none => simp [hf, hg, Except.bind] at h
      | some name =>
        simp only [hf, hg, Except.bind] at h
        split_ifs at h with hn hs hl
        cases h
        simp only [Bool.or_eq_true, decide_eq_true_eq, not_or, Bool.not_eq_true] at hn
        obtain ⟨⟨h1, h2⟩, h3⟩ := hn
        have hd : Path.descend folder name = folder ++ [name] := by simp [Path.descend, h2, h3]
        exact ⟨folder, name, rfl, rfl, ⟨h1, h2, h3, Nat.not_lt.1 hs⟩, hd, hl⟩
  · rintro ⟨folder, name, hf, hg, ⟨h1, h2, h3, hs⟩, rfl, hl⟩
    have hd : Path.descend folder name = folder ++ [name] := by simp [Path.descend, h2, h3]
    simp [target, hf, hg, Except.bind, h1, h2, h3, Nat.not_lt.2 hs, hd, hl]

/-! ## Afterwards -/

/-- what appears together with a new entry is on the way to it -/
theorem prefix_of_look?_put {d : Directory} {new place : List String} {e : Entry} (h : d.look? place = none)
    (hp : ((d.put new e).look? place).isSome = true) : place <+: new := by
  by_cases hne : place = new
  · exact hne ▸ List.prefix_refl _
  · have hb : (place == new) = false := by simpa using hne
    have hl : (d.put new e).entries.lookup place = d.entries.lookup place := by rw [put, List.lookup_cons, hb]
    unfold look? at h hp
    rw [hl] at hp
    cases hd : d.entries.lookup place with
    | some f => simp [hd] at h
    | none =>
      have hf : d.isFolder place = false := by simpa [hd] using h
      have hi : (d.put new e).isFolder place = true := by simpa [hd] using hp
      unfold isFolder at hf hi
      rw [Bool.or_eq_false_iff] at hf
      rw [hf.1, Bool.false_or, put, List.any_cons, hf.2, Bool.or_false] at hi
      exact List.isPrefixOf_iff_prefix.1 hi

/-- **A path stays writable** when a text is put elsewhere, or there. -/
theorem Writable.write {d d' : Directory} {path other content : String} (h : d.Writable path)
    (hw : d.write other content = .ok d') : d'.Writable path := by
  obtain ⟨new, hn, rfl⟩ := (write_eq_ok_iff ..).1 hw
  obtain ⟨place, hp⟩ := h
  obtain ⟨folder, name, hf, hg, hname, rfl, hl⟩ := (target_eq_ok_iff ..).1 hp
  obtain ⟨above, last, ha, -, -, rfl, hnew⟩ := (target_eq_ok_iff ..).1 hn
  refine ⟨_, (target_eq_ok_iff ..).2 ⟨folder, name, holder_put _ hnew hf, hg, hname, rfl, fun hc => ?_⟩⟩
  by_cases hne : folder ++ [name] = above ++ [last]
  · rw [hne, look?_put_self] at hc
    cases hc
  · cases hd : d.look? (folder ++ [name]) with
    | some f =>
      rw [look?_put_of_ne hne hd] at hc
      exact hl (hd.trans hc)
    | none =>
      -- nothing was there, so it is above the new text, where everything is there
      have hpre := prefix_of_look?_put hd (by rw [hc]; rfl)
      have hw := walked_holder ha _ ((List.prefix_concat_iff.1 hpre).resolve_left hne)
      rw [hd] at hw
      cases hw

end ByteMachine.Directory

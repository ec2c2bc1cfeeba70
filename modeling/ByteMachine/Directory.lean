/-
A directory: named texts that commands read and write.

Rules:
- a path is walked name by name; `.` stays where it is, and `..` goes to the folder above;
- each name on the way but the last has to be there, and to be a folder; a name has a longest length, and so has a path;
- a path that ends in a slash can only mean a folder, and so can one that ends in `.` or `..`;
- a folder is there as soon as something is in it. The folders outside, above the start, are taken to be there.

Contents:
- `Path`: a path as its names;
- `Directory`: the entries, each at its place, which is the row of names that leads there without `.`;
- `Directory.enter`, `Directory.follow`: one step on the way;
- `Directory.read`, `Directory.write`: reading a text and writing one.

Main statements: `read_write` (what is written is read back) and `read_write_of_ne` (a text elsewhere stays as it is).
-/
import ByteMachine.Text.Pieces

namespace ByteMachine

/-- why a file cannot be read as text, or written -/
inductive FileError
  | missing
  | isDirectory
  | notDirectory
  | nameTooLong
  | notUtf8
  deriving DecidableEq, Repr

def FileError.message : FileError → String
  | .missing => "No such file or directory (os error 2)"
  | .isDirectory => "Is a directory (os error 21)"
  | .notDirectory => "Not a directory (os error 20)"
  | .nameTooLong => "File name too long (os error 36)"
  | .notUtf8 => "stream did not contain valid UTF-8"

/-! ## Paths -/

structure Path where
  /-- how many bytes its text has -/
  size : Nat
  /-- the place that it starts from: the root, or none in particular -/
  start : List String
  /-- the names from the top down -/
  names : List String
  /-- it ends in a slash -/
  isFolder : Bool
  deriving DecidableEq, Repr

namespace Path

/-- the name of the root -/
def root : String := "/"

/-- the name that stays where it is -/
def here : String := "."

/-- the name of the folder above -/
def above : String := ".."

/-- the longest path, in bytes -/
def sizeLimit : Nat := 4095

/-- the longest name, in bytes -/
def nameLimit : Nat := 255

def ofText (s : String) : Path :=
  { size := s.utf8ByteSize
    start := if s.toList.head? = some '/' then [root] else []
    names := ((Text.pieces '/' s.toList).filter fun name => !name.isEmpty).map String.ofList
    isFolder := s.toList.getLast? = some '/' }

/-- is the text of the path one that can be walked? -/
def check (p : Path) : Except FileError Unit :=
  if p.size = 0 then .error .missing else if sizeLimit < p.size then .error .nameTooLong else .ok ()

/-- the place of the folder above; there is none above the root -/
def parent (place : List String) : List String :=
  if place.all (· = above) then place ++ [above] else if place = [root] then place else place.dropLast

/-- the place one name further -/
def descend (place : List String) (name : String) : List String :=
  if name = here then place else if name = above then parent place else place ++ [name]

/-- the places on the way, the last one included -/
def places (p : Path) : List (List String) :=
  (List.range p.names.length).map fun n => (p.names.take (n + 1)).foldl descend p.start

end Path

/-! ## Entries -/

inductive Entry
  | text (content : String)
  /-- a file whose bytes are no text -/
  | binary
  | folder
  deriving DecidableEq, Repr

/-- what an entry holds, asked for as a file -/
def Entry.content : Entry → Except FileError String
  | .text content => .ok content
  | .binary => .error .notUtf8
  | .folder => .error .isDirectory

structure Directory where
  entries : List (List String × Entry) := []
  deriving DecidableEq, Repr

namespace Directory

/-- is there something below this place? The folders outside are taken to be there. -/
def isFolder (d : Directory) (place : List String) : Bool :=
  place.all (fun n => n == Path.root || n == Path.above) || d.entries.any fun e => place.isPrefixOf e.1

def look? (d : Directory) (place : List String) : Option Entry :=
  match d.entries.lookup place with
  | some e => some e
  | none => if d.isFolder place then some .folder else none

/-- the directory with this entry, which hides an older one at its place -/
def put (d : Directory) (place : List String) (e : Entry) : Directory :=
  ⟨(place, e) :: d.entries⟩

/-- a directory of texts -/
def ofTexts (texts : List (String × String)) : Directory :=
  ⟨texts.map fun (path, content) =>
    let p := Path.ofText path
    (p.names.foldl Path.descend p.start, .text content)⟩

/-! ## Walking -/

/-- the place one name further, if there is something -/
def follow (d : Directory) (place : List String) (name : String) : Except FileError (List String) :=
  if Path.nameLimit < name.utf8ByteSize then .error .nameTooLong
  else if (d.look? (Path.descend place name)).isSome then .ok (Path.descend place name)
  else .error .missing

/-- the place one name further, if there is a folder -/
def enter (d : Directory) (place : List String) (name : String) : Except FileError (List String) :=
  (d.follow place name).bind fun next => if d.look? next = some .folder then .ok next else .error .notDirectory

/-- the place of the folder in which the last name of a path counts -/
def holder (d : Directory) (p : Path) : Except FileError (List String) :=
  p.check.bind fun _ => p.names.dropLast.foldlM d.enter p.start

/-- the place that a path leads to, if there is something -/
def find (d : Directory) (p : Path) : Except FileError (List String) :=
  (d.holder p).bind fun folder =>
    match p.names.getLast? with
    | none => .ok folder
    | some name => d.follow folder name

/-- the place that a path leads to, if a text can be put there -/
def target (d : Directory) (p : Path) : Except FileError (List String) :=
  (d.holder p).bind fun folder =>
    match p.names.getLast? with
    | none => .error .isDirectory
    | some name =>
      if p.isFolder || name = Path.here || name = Path.above then .error .isDirectory
      else if Path.nameLimit < name.utf8ByteSize then .error .nameTooLong
      else if d.look? (Path.descend folder name) = some .folder then .error .isDirectory
      else .ok (Path.descend folder name)

/-! ## Reading and writing -/

/-- the text at a place that a path leads to -/
def textAt (d : Directory) (p : Path) (place : List String) : Except FileError String :=
  match d.look? place with
  | none => .error .missing
  | some e => if p.isFolder && e ≠ .folder then .error .notDirectory else e.content

def read (d : Directory) (path : String) : Except FileError String :=
  (d.find (.ofText path)).bind (d.textAt (.ofText path))

def write (d : Directory) (path content : String) : Except FileError Directory :=
  (d.target (.ofText path)).map fun place => d.put place (.text content)

/-! ## Reading what was written -/

theorem textAt_eq_ok_iff (d : Directory) (p : Path) (place : List String) (text : String) :
    d.textAt p place = .ok text ↔ d.look? place = some (.text text) ∧ p.isFolder = false := by
  unfold textAt
  cases d.look? place with
  | none => simp
  | some e => cases e <;> cases p.isFolder <;> simp [Entry.content]

/-- a path can be read exactly when it leads to a text, and does not ask for a folder -/
theorem read_eq_ok_iff (d : Directory) (path text : String) :
    d.read path = .ok text ↔
      ∃ place, d.find (.ofText path) = .ok place ∧ d.look? place = some (.text text) ∧
        (Path.ofText path).isFolder = false := by
  unfold read
  cases d.find (.ofText path) with
  | error e => simp [Except.bind]
  | ok place => simp [Except.bind, textAt_eq_ok_iff]

theorem write_eq_ok_iff (d d' : Directory) (path content : String) :
    d.write path content = .ok d' ↔
      ∃ place, d.target (.ofText path) = .ok place ∧ d' = d.put place (.text content) := by
  unfold write
  cases d.target (.ofText path) with
  | error e => simp [Except.map]
  | ok place => simp [Except.map, eq_comm]

/-! ### What a new entry leaves as it is -/

theorem look?_put_self (d : Directory) (place : List String) (e : Entry) : (d.put place e).look? place = some e := by
  simp [put, look?]

theorem isFolder_put {d : Directory} {place : List String} (new : List String) (e : Entry)
    (h : d.isFolder place = true) : (d.put new e).isFolder place = true := by
  unfold isFolder at h ⊢
  rw [put, List.any_cons]
  rcases Bool.or_eq_true_iff.1 h with h | h
  · rw [h, Bool.true_or]
  · rw [h, Bool.or_true, Bool.or_true]

/-- what is at another place is there still -/
theorem look?_put_of_ne {d : Directory} {new place : List String} {e f : Entry} (hne : place ≠ new)
    (h : d.look? place = some f) : (d.put new e).look? place = some f := by
  have hb : (place == new) = false := by simpa using hne
  have hl : (d.put new e).entries.lookup place = d.entries.lookup place := by rw [put, List.lookup_cons, hb]
  unfold look? at h ⊢
  rw [hl]
  cases hd : d.entries.lookup place with
  | some g => simpa [hd] using h
  | none =>
    by_cases hf : d.isFolder place = true
    · simpa [hd, hf, isFolder_put new e hf] using h
    · simp [hd, hf] at h

theorem isSome_look?_put {d : Directory} {place : List String} (new : List String) (e : Entry)
    (h : (d.look? place).isSome = true) : ((d.put new e).look? place).isSome = true := by
  by_cases hne : place = new
  · rw [hne, look?_put_self]; rfl
  · obtain ⟨f, hf⟩ := Option.isSome_iff_exists.1 h
    rw [look?_put_of_ne hne hf]; rfl

theorem follow_eq_ok_iff (d : Directory) (place next : List String) (name : String) :
    d.follow place name = .ok next ↔
      name.utf8ByteSize ≤ Path.nameLimit ∧ (d.look? next).isSome = true ∧ next = Path.descend place name := by
  unfold follow
  split
  · next hn => simp [Nat.not_le.2 hn]
  · next hn =>
    split
    · next hl =>
      rw [Except.ok.injEq]
      exact ⟨fun h => ⟨Nat.not_lt.1 hn, h ▸ hl, h.symm⟩, fun h => h.2.2.symm⟩
    · next hl =>
      exact ⟨fun h => (nomatch h), fun h => absurd (h.2.2 ▸ h.2.1) hl⟩

theorem enter_eq_ok_iff (d : Directory) (place next : List String) (name : String) :
    d.enter place name = .ok next ↔ d.follow place name = .ok next ∧ d.look? next = some .folder := by
  unfold enter
  cases d.follow place name with
  | error e => simp [Except.bind]
  | ok p =>
    simp only [Except.bind, Except.ok.injEq]
    split
    · next hl =>
      rw [Except.ok.injEq]
      exact ⟨fun h => ⟨h, h ▸ hl⟩, fun h => h.1⟩
    · next hl => exact ⟨fun h => (nomatch h), fun h => absurd (h.1 ▸ h.2) hl⟩

theorem follow_put {d : Directory} {place next : List String} {name : String} (new : List String) (e : Entry)
    (h : d.follow place name = .ok next) : (d.put new e).follow place name = .ok next := by
  obtain ⟨hn, hl, hd⟩ := (follow_eq_ok_iff _ _ _ _).1 h
  exact (follow_eq_ok_iff _ _ _ _).2 ⟨hn, isSome_look?_put new e hl, hd⟩

theorem enter_put {d : Directory} {place next new : List String} {name : String} (e : Entry)
    (hnew : d.look? new ≠ some .folder) (h : d.enter place name = .ok next) :
    (d.put new e).enter place name = .ok next := by
  obtain ⟨hf, hl⟩ := (enter_eq_ok_iff _ _ _ _).1 h
  have hne : next ≠ new := fun he => hnew (he ▸ hl)
  exact (enter_eq_ok_iff _ _ _ _).2 ⟨follow_put new e hf, look?_put_of_ne hne hl⟩

theorem foldlM_enter_put {d : Directory} {names start place new : List String} (e : Entry)
    (hnew : d.look? new ≠ some .folder) (h : names.foldlM d.enter start = .ok place) :
    names.foldlM (d.put new e).enter start = .ok place := by
  induction names generalizing start with
  | nil => exact h
  | cons name names ih =>
    rw [List.foldlM_cons] at h ⊢
    cases hs : d.enter start name with
    | error x => rw [hs] at h; cases h
    | ok next =>
      rw [hs] at h
      rw [enter_put e hnew hs]
      exact ih h

theorem holder_put {d : Directory} {p : Path} {place new : List String} (e : Entry)
    (hnew : d.look? new ≠ some .folder) (h : d.holder p = .ok place) : (d.put new e).holder p = .ok place := by
  unfold holder at h ⊢
  cases hc : p.check with
  | error x => rw [hc] at h; cases h
  | ok _ =>
    rw [hc] at h
    exact foldlM_enter_put e hnew h

theorem find_put {d : Directory} {p : Path} {place new : List String} (e : Entry)
    (hnew : d.look? new ≠ some .folder) (h : d.find p = .ok place) : (d.put new e).find p = .ok place := by
  unfold find at h ⊢
  cases hh : d.holder p with
  | error x => rw [hh] at h; cases h
  | ok folder =>
    rw [hh] at h
    rw [holder_put e hnew hh]
    cases hg : p.names.getLast? with
    | none => simpa [Except.bind, hg] using h
    | some name =>
      rw [hg] at h
      exact follow_put new e h

/-! ### What a path leads to afterwards -/

/-- a text goes to a place that is no folder, and its path leads there afterwards -/
theorem find_put_target {d : Directory} {p : Path} {place : List String} (e : Entry) (h : d.target p = .ok place) :
    d.look? place ≠ some .folder ∧ p.isFolder = false ∧ (d.put place e).find p = .ok place := by
  unfold target at h
  cases hh : d.holder p with
  | error x => rw [hh] at h; cases h
  | ok folder =>
    rw [hh] at h
    cases hg : p.names.getLast? with
    | none => simp [Except.bind, hg] at h
    | some name =>
      simp only [Except.bind, hg] at h
      split at h
      · cases h
      · next hd =>
        split at h
        · cases h
        · next hn =>
          split at h
          · cases h
          · next hl =>
            cases h
            have hf : p.isFolder = false := by
              cases hf : p.isFolder with
              | false => rfl
              | true => simp [hf] at hd
            refine ⟨hl, hf, ?_⟩
            rw [find, holder_put e hl hh]
            simp only [Except.bind, hg]
            exact (follow_eq_ok_iff _ _ _ _).2 ⟨Nat.not_lt.1 hn, by rw [look?_put_self]; rfl, rfl⟩

/-- what is written is read back -/
theorem read_write {d d' : Directory} {path content : String} (h : d.write path content = .ok d') :
    d'.read path = .ok content := by
  obtain ⟨place, ht, rfl⟩ := (write_eq_ok_iff _ _ _ _).1 h
  obtain ⟨-, hf, hp⟩ := find_put_target (.text content) ht
  exact (read_eq_ok_iff _ _ _).2 ⟨place, hp, look?_put_self _ _ _, hf⟩

/-- a text elsewhere stays as it is -/
theorem read_write_of_ne {d d' : Directory} {path other content text : String} (h : d.write path content = .ok d')
    (hne : d.find (.ofText other) ≠ d.target (.ofText path)) (hr : d.read other = .ok text) :
    d'.read other = .ok text := by
  obtain ⟨place, ht, rfl⟩ := (write_eq_ok_iff _ _ _ _).1 h
  obtain ⟨hl, -, -⟩ := find_put_target (.text content) ht
  obtain ⟨place', hp, he, hf⟩ := (read_eq_ok_iff _ _ _).1 hr
  rw [hp, ht] at hne
  exact (read_eq_ok_iff _ _ _).2 ⟨place', find_put _ hl hp, look?_put_of_ne (fun hc => hne (hc ▸ rfl)) he, hf⟩

end Directory

end ByteMachine

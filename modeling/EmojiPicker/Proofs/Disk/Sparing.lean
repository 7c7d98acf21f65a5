import EmojiPicker.Proofs.Disk.Names
import EmojiPicker.Proofs.Disk.Places

/-!
# What changes of a disk leave alone

* `Disk.Spares` — a change keeps every directory, and every file whose name is not of one kind;
* `Disk.makeDirectory_cases`, `Disk.makeDirectories_relates`, `Disk.write_cases`,
  `Disk.renameFile_cases`, `Disk.removeFile_cases` — what each change may do;
* `Disk.spares_makeDirectories`, `Disk.spares_write`, `Disk.spares_renameFile`,
  `Disk.spares_removeFile` — each change by what its paths end in;
* `Disk.Steady`, `Disk.Anchored`, `Disk.read_anchored` — a path that is read as before after such
  changes;
* `Disk.read_write`, `Disk.read_renameFile` — what was written or moved is read.
-/

namespace EmojiPicker

namespace Disk

variable {own : String → Bool} {d e f : Disk}

/-! ## Paths that name an entry -/

theorem next?_of_ne {place next : Place} {name : String} (here : name ≠ ".") (up : name ≠ "..")
    (h : next? place name = some next) : next = name :: place := by
  rw [next?, if_neg (by simpa using here), if_neg (by simpa using up)] at h
  split at h
  · exact absurd h (by simp)
  · exact (Option.some.inj h).symm

/-- The last name of a path is the name at its place, and a directory holds it. -/
theorem LeadsTo.place_eq {p : Path} {name : String} {place : Place} (leads : d.LeadsTo p place)
    (ends : p.EndsIn name) :
    ∃ above, place = name :: above ∧ d.standing above = .directory := by
  rcases List.getLast?_eq_some_iff.1 ends.last with ⟨before, names⟩
  have path := (leadsTo_iff.1 leads).2.2
  rw [names] at path
  clear names
  -- Only the last step matters, wherever the others begin.
  generalize d.origin p = start at path
  induction before generalizing start with
  | nil =>
      rcases path with _ | ⟨through, moves, further⟩
      cases further
      exact ⟨start, next?_of_ne ends.here ends.up moves, through⟩
  | cons first rest ih =>
      rcases path with _ | ⟨through, moves, further⟩
      exact ih _ further

/-- Where names lead to nothing yet, the last of them is the name of the place, and a directory
stands above it. -/
theorem Leads.fresh {place final : Place} {names : List String} (leads : d.Leads place names final)
    (free : d.standing final = .nothing) (moved : names ≠ []) :
    ∃ name above, final = name :: above ∧ name ∈ names ∧ d.standing above = .directory := by
  induction leads with
  | done place => exact absurd rfl moved
  | @step place next final name rest through moves further ih =>
      by_cases last : rest = []
      · subst last
        cases further
        rw [next?] at moves
        split at moves
        · -- The directory that the step stays in stands there.
          obtain rfl := Option.some.inj moves
          rw [through] at free
          exact absurd free (by simp)
        · split at moves
          · obtain rfl := Option.some.inj moves
            have stands : d.standing place.tail = .directory := by
              cases place with
              | nil => exact through
              | cons first above =>
                  have whole : d.standing (first :: above) ≠ .nothing := by simp [through]
                  exact standing_above whole
            rw [stands] at free
            exact absurd free (by simp)
          · split at moves
            · exact absurd moves (by simp)
            · exact ⟨name, place, (Option.some.inj moves).symm, List.mem_cons_self, through⟩
      · rcases ih free last with ⟨held, above, same, member, parent⟩
        exact ⟨held, above, same, List.mem_cons_of_mem name member, parent⟩

theorem LeadsTo.fresh {p : Path} {place : Place} (leads : d.LeadsTo p place)
    (free : d.standing place = .nothing) :
    ∃ name above, place = name :: above ∧ name ∈ p.names ∧ d.standing above = .directory := by
  rcases leadsTo_iff.1 leads with ⟨_, written, way⟩
  refine way.fresh free ?_
  -- Without names a path is one of the top directory.
  intro still
  rw [still] at way
  cases absolute : p.isAbsolute with
  | false => exact Path.names_ne_nil written absolute still
  | true =>
      rw [origin, if_pos absolute] at way
      cases way
      exact absurd free (by simp [standing, entry?, Folder.entry?, Standing.of])

/-- What is no directory has a name, and a directory stands above it. -/
theorem LeadsTo.parent {p : Path} {place : Place} (leads : d.LeadsTo p place)
    (spared : d.standing place ≠ .directory) :
    ∃ name above, place = name :: above ∧ d.standing above = .directory := by
  cases place with
  | nil => exact absurd rfl spared
  | cons name above =>
      refine ⟨name, above, rfl, ?_⟩
      by_cases free : d.standing (name :: above) = .nothing
      · rcases leads.fresh free with ⟨_, _, same, _, parent⟩
        cases same
        exact parent
      · exact standing_above free

/-- A path to something else than a directory names an entry. -/
theorem LeadsTo.exists_endsIn {p : Path} {place : Place} (leads : d.LeadsTo p place)
    (spared : d.standing place ≠ .directory) : ∃ name, p.EndsIn name := by
  rcases leadsTo_iff.1 leads with ⟨_, written, way⟩
  rcases List.eq_nil_or_concat p.names with none | ⟨before, name, names⟩
  · -- Without names a path is one of the top directory.
    rw [none] at way
    cases absolute : p.isAbsolute with
    | false => exact absurd none (Path.names_ne_nil written absolute)
    | true =>
        rw [origin, if_pos absolute] at way
        cases way
        exact absurd rfl spared
  · rw [List.concat_eq_append] at names
    rw [names] at way
    rcases Leads.append_iff.1 way with ⟨mid, _, last⟩
    rcases leads_single.1 last with ⟨through, moves⟩
    -- A step up or nowhere ends in a directory.
    refine ⟨name, by rw [names, List.getLast?_concat], ?_, ?_⟩
    · rintro rfl
      obtain rfl := Option.some.inj moves
      exact spared through
    · rintro rfl
      obtain rfl := Option.some.inj moves
      cases mid with
      | nil => exact spared through
      | cons first above =>
          have whole : d.standing (first :: above) ≠ .nothing := by simp [through]
          exact spared (standing_above whole)

/-! ## Sparing -/

/-- A change keeps every directory, and every file whose name is not one of its own. Where nothing
stood, new directories may stand. -/
structure Spares (own : String → Bool) (d e : Disk) : Prop where
  workingDirectory : e.workingDirectory = d.workingDirectory
  directories : ∀ {place}, d.standing place = .directory → e.standing place = .directory
  files : ∀ {name above bytes}, own name = false →
    (e.standing (name :: above) = .file bytes ↔ d.standing (name :: above) = .file bytes)

namespace Spares

theorem origin (spares : Spares own d e) (p : Path) : e.origin p = d.origin p := by
  rw [Disk.origin, Disk.origin, spares.workingDirectory]

theorem refl (own : String → Bool) (d : Disk) : Spares own d d where
  workingDirectory := rfl
  directories := id
  files := fun _ => Iff.rfl

theorem trans (first : Spares own d e) (second : Spares own e f) : Spares own d f where
  workingDirectory := second.workingDirectory.trans first.workingDirectory
  directories := fun h => second.directories (first.directories h)
  files := fun foreign => (second.files foreign).trans (first.files foreign)

/-- A change spares all the more if more kinds of names are its own. -/
theorem weaken {other : String → Bool} (more : ∀ name, other name = false → own name = false)
    (spares : Spares own d e) : Spares other d e where
  workingDirectory := spares.workingDirectory
  directories := spares.directories
  files := fun foreign => spares.files (more _ foreign)

end Spares

/-- A change at one place, where no directory stands, spares the others. -/
theorem spares_of_ne {name : String} {above : Place}
    (workingDirectory : e.workingDirectory = d.workingDirectory)
    (spared : d.standing (name :: above) ≠ .directory)
    (elsewhere : ∀ place, place ≠ name :: above → e.standing place = d.standing place)
    (there : own name = false →
      ∀ bytes, e.standing (name :: above) = .file bytes ↔ d.standing (name :: above) = .file bytes) :
    Spares own d e where
  workingDirectory := workingDirectory
  directories := by
    intro place stands
    by_cases same : place = name :: above
    · rw [same] at stands
      exact absurd stands spared
    · rw [elsewhere place same]
      exact stands
  files := by
    intro other beside bytes foreign
    by_cases same : other :: beside = name :: above
    · cases same
      exact there foreign bytes
    · rw [elsewhere _ same]

theorem spares_put_file {name : String} {above : Place} (owned : own name = true)
    (spared : d.standing (name :: above) ≠ .directory) (bytes : List UInt8) :
    Spares own d (d.put (name :: above) (.file bytes)) := by
  refine spares_of_ne (put_workingDirectory d _ _) spared ?_ ?_
  · intro place ne
    exact standing_put_of_ne (by simp) spared ne
  · intro foreign
    rw [owned] at foreign
    exact absurd foreign (by simp)

theorem spares_erase {name : String} {above : Place} (owned : own name = true)
    (spared : d.standing (name :: above) ≠ .directory) :
    Spares own d (d.erase (name :: above)) := by
  refine spares_of_ne (erase_workingDirectory d _) spared ?_ ?_
  · intro place ne
    exact standing_erase_of_ne spared ne
  · intro foreign
    rw [owned] at foreign
    exact absurd foreign (by simp)

/-- Nothing new stands anywhere when a file is taken away, also not where it stood. -/
theorem standing_erase_ne_directory {name : String} {above place : Place}
    (parent : d.standing above = .directory) (spared : d.standing (name :: above) ≠ .directory)
    (free : d.standing place ≠ .directory) :
    (d.erase (name :: above)).standing place ≠ .directory := by
  by_cases same : place = name :: above
  · rw [same, standing, entry?_erase_self parent]
    simp [Standing.of]
  · rw [standing_erase_of_ne spared same]
    exact free

/-- The target may be the source itself, and then nothing stands there meanwhile. -/
theorem spares_move {source target : String} {above beside : Place} (ownSource : own source = true)
    (ownTarget : own target = true) (parent : d.standing above = .directory)
    (spared : d.standing (source :: above) ≠ .directory)
    (free : d.standing (target :: beside) ≠ .directory) (bytes : List UInt8) :
    Spares own d ((d.erase (source :: above)).put (target :: beside) (.file bytes)) := by
  have still := standing_erase_ne_directory parent spared free
  exact (spares_erase ownSource spared).trans (spares_put_file ownTarget still bytes)

/-- An empty directory where nothing stood spares everything. -/
theorem spares_put_directory {place : Place} (free : d.standing place = .nothing) :
    Spares own d (d.put place (.directory .empty)) := by
  cases place with
  | nil => exact Spares.refl own d
  | cons name above =>
      have spared : d.standing (name :: above) ≠ .directory := by
        rw [free]
        simp
      have elsewhere : ∀ place, place ≠ name :: above →
          (d.put (name :: above) (.directory .empty)).standing place = d.standing place := by
        intro place ne
        exact standing_put_of_ne (by simp) spared ne
      refine spares_of_ne (put_workingDirectory d _ _) spared elsewhere ?_
      -- No file stood here, and none stands here now.
      intro _ bytes
      rw [free]
      refine iff_of_false ?_ (by simp)
      by_cases parent : d.standing above = .directory
      · rw [standing, entry?_put_self (by simp) parent]
        simp [Standing.of]
      · rw [standing_cons_of_above]
        · simp
        · rw [elsewhere above (by simp)]
          exact parent

/-! ## The operations -/

theorem nextMishap_eq (d : Disk) :
    ∃ mishap, d.nextMishap = (mishap, { d with mishaps := d.mishaps.tail }) := by
  rcases d with ⟨top, workingDirectory, _ | ⟨mishap, rest⟩⟩
  · exact ⟨.none, rfl⟩
  · exact ⟨mishap, rfl⟩

theorem spares_mishaps (own : String → Bool) (d : Disk) (mishaps : List Mishap) :
    Spares own d { d with mishaps := mishaps } :=
  ⟨rfl, id, fun _ => Iff.rfl⟩

/-- A directory is refused, or made where nothing stands. -/
theorem makeDirectory_cases (d : Disk) (p : Path) :
    ((d.makeDirectory p).1 ≠ .ok () ∧
        ∃ mishaps, (d.makeDirectory p).2 = { d with mishaps := mishaps }) ∨
      ∃ place mishaps, d.LeadsTo p place ∧ d.standing place = .nothing ∧
        (d.makeDirectory p).2 =
          ({ d with mishaps := mishaps } : Disk).put place (.directory .empty) := by
  rw [makeDirectory]
  rcases located : d.locate p with fault | s
  · exact Or.inl ⟨by simp, d.mishaps, rfl⟩
  · rcases locate_eq_ok located with ⟨place, leads, rfl⟩
    rcases found : d.entry? place with _ | entry
    · rcases d.nextMishap_eq with ⟨mishap, next⟩
      simp only [spot, found, next]
      cases mishap with
      | none => exact Or.inr ⟨place, _, leads, congrArg Standing.of found, rfl⟩
      | refusal => exact Or.inl ⟨by simp, _, rfl⟩
      | torn left => exact Or.inl ⟨by simp, _, rfl⟩
    · simp only [spot, found]
      exact Or.inl ⟨by simp, d.mishaps, rfl⟩

theorem spares_makeDirectory (own : String → Bool) (d : Disk) (p : Path) :
    Spares own d (d.makeDirectory p).2 := by
  rcases makeDirectory_cases d p with ⟨_, mishaps, same⟩ | ⟨place, mishaps, _, free, same⟩
  · rw [same]
    exact spares_mishaps own d mishaps
  · rw [same]
    exact (spares_mishaps own d mishaps).trans
      (spares_put_directory (d := { d with mishaps := mishaps }) free)

/-- Directories are made one by one. What each step does to the disk, all of them do together,
wherever they stop. -/
theorem makeFirst_relates {R : Disk → Disk → Prop} (refl : ∀ d, R d d)
    (trans : ∀ {d e f}, R d e → R e f → R d f) {paths : List Path}
    (made : ∀ d, ∀ p ∈ paths, R d (makeDirectory d p).2) (d : Disk) :
    R d (makeFirst paths d).2 := by
  induction paths generalizing d with
  | nil => exact refl d
  | cons p above ih =>
      have one := fun d => made d p List.mem_cons_self
      have others := ih fun d q member => made d q (List.mem_cons_of_mem p member)
      have first := one d
      rw [makeFirst]
      rcases answer : d.makeDirectory p with ⟨result, e⟩
      rw [answer] at first
      have settled : ∀ fault : DiskFault,
          R d (if e.isDirectory p then (Except.ok (), e) else (.error fault, e)).2 := by
        intro fault
        split <;> exact first
      rcases result with fault | ⟨⟩
      · cases fault with
        | notFound =>
            -- The directories above are made first, and then this one again.
            have between := trans first (others e)
            rcases rest : makeFirst above e with ⟨result, f⟩
            rw [rest] at between
            rcases result with fault | ⟨⟩
            · simp only [rest]
              exact between
            · have again := trans between (one f)
              rcases second : f.makeDirectory p with ⟨result, g⟩
              rw [second] at again
              simp only [rest, second]
              rcases result with fault | ⟨⟩
              · dsimp only
                split <;> exact again
              · exact again
        | _ => exact settled _
      · exact first

theorem makeDirectories_relates {R : Disk → Disk → Prop} (refl : ∀ d, R d d)
    (trans : ∀ {d e f}, R d e → R e f → R d f) {p : Path}
    (made : ∀ d, ∀ q ∈ p :: p.above, R d (makeDirectory d q).2) (d : Disk) :
    R d (d.makeDirectories p).2 := by
  rw [makeDirectories]
  split
  · exact refl d
  · exact makeFirst_relates refl trans made d

/-- Whatever fails, making directories spares everything. -/
theorem spares_makeDirectories (own : String → Bool) (d : Disk) (p : Path) :
    Spares own d (d.makeDirectories p).2 :=
  makeDirectories_relates (Spares.refl own) Spares.trans
    (fun d q _ => spares_makeDirectory own d q) d

theorem spares_makeParent (own : String → Bool) (d : Disk) (p : Path) :
    Spares own d (d.makeParent p).2 :=
  makeFirst_relates (Spares.refl own) Spares.trans (fun d q _ => spares_makeDirectory own d q) d

/-- A write is refused, or leaves bytes where the path leads: the given ones if it succeeds. -/
theorem write_cases (d : Disk) (p : Path) (bytes : List UInt8) :
    ((d.write p bytes).1 ≠ .ok () ∧ ∃ mishaps, (d.write p bytes).2 = { d with mishaps := mishaps }) ∨
      ∃ place left mishaps, d.LeadsTo p place ∧ d.standing place ≠ .directory ∧
        p.endsInSlash = false ∧ ((d.write p bytes).1 = .ok () → left = bytes) ∧
        (d.write p bytes).2 = ({ d with mishaps := mishaps } : Disk).put place (.file left) := by
  rw [write.eq_def]
  rcases located : d.locate p with fault | s
  · exact Or.inl ⟨by simp, d.mishaps, rfl⟩
  · rcases locate_eq_ok located with ⟨place, leads, rfl⟩
    split
    · exact Or.inl ⟨by simp, d.mishaps, rfl⟩
    · exact Or.inl ⟨by simp, d.mishaps, rfl⟩
    · next s undirected same =>
        cases same
        have spared : d.standing place ≠ .directory := by
          intro stands
          rcases Standing.of_eq_directory stands with ⟨inside, found⟩
          exact undirected place inside (by rw [spot, found])
        split
        · exact Or.inl ⟨by simp, d.mishaps, rfl⟩
        · next slash =>
            have flat : p.endsInSlash = false := by simpa using slash
            rcases d.nextMishap_eq with ⟨mishap, next⟩
            simp only [next, spot]
            cases mishap with
            | none =>
                exact Or.inr ⟨place, bytes, _, leads, spared, flat, fun _ => rfl, rfl⟩
            | refusal =>
                exact Or.inl ⟨by simp, _, rfl⟩
            | torn left =>
                exact Or.inr ⟨place, left, _, leads, spared, flat, by simp, rfl⟩

theorem spares_write {p : Path} {name : String} (ends : p.EndsIn name) (owned : own name = true)
    (d : Disk) (bytes : List UInt8) : Spares own d (d.write p bytes).2 := by
  rcases write_cases d p bytes with
    ⟨_, mishaps, same⟩ | ⟨place, left, mishaps, leads, spared, _, _, same⟩
  · rw [same]
    exact spares_mishaps own d mishaps
  · rcases leads.place_eq ends with ⟨above, rfl, _⟩
    rw [same]
    have put := spares_put_file (d := { d with mishaps := mishaps }) owned spared left
    exact (spares_mishaps own d mishaps).trans put

/-- Wherever a path leads, a write through it keeps the directories. -/
theorem spares_directories_write (d : Disk) (p : Path) (bytes : List UInt8) :
    Spares (fun _ => true) d (d.write p bytes).2 := by
  rcases write_cases d p bytes with
    ⟨_, mishaps, same⟩ | ⟨place, left, mishaps, leads, spared, _, _, same⟩
  · rw [same]
    exact spares_mishaps _ d mishaps
  · rcases leads.parent spared with ⟨name, above, rfl, _⟩
    rw [same]
    exact (spares_mishaps _ d mishaps).trans
      (spares_put_file (d := { d with mishaps := mishaps }) rfl spared left)

/-- A removal changes nothing, or takes away the file that the path leads to. -/
theorem removeFile_cases (d : Disk) (p : Path) :
    (d.removeFile p).2 = d ∨
      ∃ place bytes, d.LeadsTo p place ∧ d.standing place = .file bytes ∧
        (d.removeFile p).2 = d.erase place := by
  rw [removeFile.eq_def]
  rcases located : d.locate p with fault | s
  · exact Or.inl rfl
  · rcases locate_eq_ok located with ⟨place, leads, rfl⟩
    rcases found : d.entry? place with _ | ⟨inside⟩ | ⟨bytes⟩
    · simp [spot, found]
    · simp [spot, found]
    · simp only [spot, found]
      split
      · exact Or.inl rfl
      · exact Or.inr ⟨place, bytes, leads, congrArg Standing.of found, rfl⟩

theorem spares_removeFile {p : Path} {name : String} (ends : p.EndsIn name)
    (owned : own name = true) (d : Disk) : Spares own d (d.removeFile p).2 := by
  rcases removeFile_cases d p with same | ⟨place, bytes, leads, stands, same⟩
  · rw [same]
    exact Spares.refl own d
  · rcases leads.place_eq ends with ⟨above, rfl, _⟩
    rw [same]
    exact spares_erase owned (by simp [stands])

/-- A move is refused, or takes the file from where the old path leads to where the new one does. -/
theorem renameFile_cases (d : Disk) (old new : Path) :
    ((d.renameFile old new).1 ≠ .ok () ∧
        ∃ mishaps, (d.renameFile old new).2 = { d with mishaps := mishaps }) ∨
      ∃ source goal bytes, (d.renameFile old new).1 = .ok () ∧ d.LeadsTo old source ∧
        d.standing source = .file bytes ∧ old.endsInSlash = false ∧ d.LeadsTo new goal ∧
        d.standing goal ≠ .directory ∧ new.endsInSlash = false ∧
        (d.renameFile old new).2 =
          (({ d with mishaps := d.mishaps.tail } : Disk).erase source).put goal (.file bytes) := by
  rw [renameFile.eq_def]
  split
  · exact Or.inl ⟨by simp, d.mishaps, rfl⟩
  · exact Or.inl ⟨by simp, d.mishaps, rfl⟩
  · exact Or.inl ⟨by simp, d.mishaps, rfl⟩
  · exact Or.inl ⟨by simp, d.mishaps, rfl⟩
  · exact Or.inl ⟨by simp, d.mishaps, rfl⟩
  · next place bytes goal undirected located aimed =>
      rcases locate_eq_ok located with ⟨source, left, held⟩
      rcases locate_eq_ok aimed with ⟨beside, aim, rfl⟩
      obtain rfl : place = source := congrArg Spot.place held
      have stands : d.standing place = .file bytes :=
        (congrArg (Standing.of ∘ Spot.holds) held).symm
      have free : d.standing beside ≠ .directory := by
        intro stands
        rcases Standing.of_eq_directory stands with ⟨inside, found⟩
        exact undirected beside inside (by rw [spot, found])
      split
      · exact Or.inl ⟨by simp, d.mishaps, rfl⟩
      · next slashes =>
          simp only [Bool.or_eq_true, not_or, Bool.not_eq_true] at slashes
          rcases d.nextMishap_eq with ⟨mishap, next⟩
          simp only [next]
          cases mishap with
          | none =>
              exact Or.inr
                ⟨place, beside, bytes, rfl, left, stands, slashes.1, aim, free, slashes.2, rfl⟩
          | refusal => exact Or.inl ⟨by simp, _, rfl⟩
          | torn left => exact Or.inl ⟨by simp, _, rfl⟩

theorem spares_renameFile {old new : Path} {source target : String} (leaves : old.EndsIn source)
    (enters : new.EndsIn target) (ownSource : own source = true) (ownTarget : own target = true)
    (d : Disk) : Spares own d (d.renameFile old new).2 := by
  rcases renameFile_cases d old new with
    ⟨_, mishaps, same⟩ | ⟨place, goal, bytes, _, left, stands, _, aim, free, _, same⟩
  · rw [same]
    exact spares_mishaps own d mishaps
  · rcases left.place_eq leaves with ⟨above, rfl, parent⟩
    rcases aim.place_eq enters with ⟨beside, rfl, _⟩
    have spared : d.standing (source :: above) ≠ .directory := by
      rw [stands]
      simp
    rw [same]
    have moved := spares_move (d := { d with mishaps := d.mishaps.tail })
      ownSource ownTarget parent spared free bytes
    exact (spares_mishaps own d d.mishaps.tail).trans moved

/-! ## Reading afterwards -/

theorem Leads.mono (keeps : ∀ {place}, d.standing place = .directory → e.standing place = .directory)
    {place final : Place} {names : List String} (leads : d.Leads place names final) :
    e.Leads place names final := by
  induction leads with
  | done place => exact .done place
  | step through moves _ ih => exact .step (keeps through) moves ih

/-- Existing ways stay as they are. -/
theorem LeadsTo.spared {p : Path} {place : Place} (spares : Spares own d e)
    (leads : d.LeadsTo p place) : e.LeadsTo p place := by
  rcases leadsTo_iff.1 leads with ⟨spelled, written, way⟩
  refine leadsTo_iff.2 ⟨spelled, written, ?_⟩
  rw [spares.origin p]
  exact way.mono spares.directories

/-- A way that never goes up ends below its start. -/
theorem Leads.descends {place final : Place} {name : String} {before : List String}
    (leads : d.Leads place (before ++ [name]) final) (level : ".." ∉ before ++ [name])
    (here : name ≠ ".") : ∃ below, below ≠ [] ∧ final = below ++ place := by
  induction before generalizing place with
  | nil =>
      rcases leads with _ | ⟨_, moves, further⟩
      cases further
      have up : name ≠ ".." := by
        intro h
        exact level (by simp [h])
      exact ⟨[name], by simp, next?_of_ne here up moves⟩
  | cons first rest ih =>
      rcases leads with _ | ⟨_, moves, further⟩
      have up : first ≠ ".." := by
        intro h
        exact level (by simp [h])
      have level' : ".." ∉ rest ++ [name] := by
        intro h
        exact level (List.mem_cons_of_mem first h)
      rcases ih further level' with ⟨below, strict, rfl⟩
      -- A step nowhere, or one down.
      by_cases stays : first = "."
      · rw [next?, if_pos (by simpa using stays)] at moves
        cases moves
        exact ⟨below, strict, rfl⟩
      · rw [next?_of_ne stays up moves]
        exact ⟨below ++ [first], by simp, by simp⟩

/-- A way that never goes up was there before, if what it leads to was: everything on it lies above
its end. -/
theorem Leads.back {place final : Place} {name : String} {before : List String}
    (leads : e.Leads place (before ++ [name]) final) (level : ".." ∉ before ++ [name])
    (here : name ≠ ".") (stands : d.standing final ≠ .nothing) :
    d.Leads place (before ++ [name]) final := by
  induction before generalizing place with
  | nil =>
      rcases leads.descends level here with ⟨below, strict, rfl⟩
      rcases leads with _ | ⟨_, moves, further⟩
      cases further
      exact .step (standing_of_append strict stands) moves (.done _)
  | cons first rest ih =>
      rcases leads.descends level here with ⟨below, strict, rfl⟩
      rcases leads with _ | ⟨_, moves, further⟩
      have level' : ".." ∉ rest ++ [name] := by
        intro h
        exact level (List.mem_cons_of_mem first h)
      exact .step (standing_of_append strict stands) moves (ih further level')

/-- Where a path leads will not change any more: it leads somewhere already, or it never goes up, or
it is unfit for any use. -/
def Steady (d : Disk) (p : Path) : Prop :=
  (∃ place, d.LeadsTo p place) ∨ ".." ∉ p.names ∨ misspelling? p ≠ none

theorem Steady.spared {p : Path} (spares : Spares own d e) (steady : d.Steady p) : e.Steady p := by
  rcases steady with ⟨place, leads⟩ | always
  · exact Or.inl ⟨place, leads.spared spares⟩
  · exact Or.inr always

/-- From where the first names of a path lead, the others never go up; or the path is unfit for any
use. -/
def Anchored (d : Disk) (p : Path) : Prop :=
  (∃ front back mid, p.names = front ++ back ∧ d.Leads (d.origin p) front mid ∧ ".." ∉ back) ∨
    misspelling? p ≠ none

theorem Steady.anchored {p : Path} (steady : d.Steady p) : d.Anchored p := by
  rcases steady with ⟨place, leads⟩ | level | misspelled
  · exact Or.inl ⟨p.names, [], place, (List.append_nil _).symm, (leadsTo_iff.1 leads).2.2, by simp⟩
  · exact Or.inl ⟨[], p.names, d.origin p, rfl, .done _, level⟩
  · exact Or.inr misspelled

/-- An anchored path to a file of another kind is read as before. -/
theorem read_anchored {p : Path} {name : String} {bytes : List UInt8} (spares : Spares own d e)
    (ends : p.EndsIn name) (foreign : own name = false) (anchored : d.Anchored p) :
    e.read p = .ok bytes ↔ d.read p = .ok bytes := by
  rw [read_eq_ok_iff, read_eq_ok_iff]
  constructor
  · rintro ⟨place, leads, stands, flat⟩
    rcases leads.place_eq ends with ⟨above, rfl, _⟩
    have stood := (spares.files foreign).1 stands
    refine ⟨name :: above, ?_, stood, flat⟩
    rcases leadsTo_iff.1 leads with ⟨spelled, written, way⟩
    refine leadsTo_iff.2 ⟨spelled, written, ?_⟩
    rcases anchored with ⟨front, back, mid, names, led, level⟩ | misspelled
    · -- The path leads there afterwards, and from its anchor it has to have led there before.
      rw [spares.origin p, names] at way
      rw [names]
      rcases Leads.append_iff.1 way with ⟨other, first, second⟩
      obtain rfl : other = mid := (led.mono spares.directories).unique first
      refine Leads.append_iff.2 ⟨other, led, ?_⟩
      rcases List.eq_nil_or_concat back with rfl | ⟨before, last, split⟩
      · cases second
        exact .done _
      · rw [List.concat_eq_append] at split
        subst split
        have same : last = name := by
          have final := ends.last
          rw [names, ← List.append_assoc, List.getLast?_concat] at final
          exact Option.some.inj final
        rw [same] at second level ⊢
        exact second.back level ends.here (by rw [stood]; simp)
    · exact absurd spelled misspelled
  · rintro ⟨place, leads, stood, flat⟩
    rcases leads.place_eq ends with ⟨above, rfl, _⟩
    exact ⟨name :: above, leads.spared spares, (spares.files foreign).2 stood, flat⟩

/-- A steady path to a file of another kind is read as before. -/
theorem read_spared {p : Path} {name : String} {bytes : List UInt8} (spares : Spares own d e)
    (ends : p.EndsIn name) (foreign : own name = false) (steady : d.Steady p) :
    e.read p = .ok bytes ↔ d.read p = .ok bytes :=
  read_anchored spares ends foreign steady.anchored

/-- What was written is read, and from then on the path is steady. -/
theorem read_write {p : Path} {bytes : List UInt8} (written : (d.write p bytes).1 = .ok ()) :
    (d.write p bytes).2.read p = .ok bytes ∧ (d.write p bytes).2.Steady p := by
  have spares := spares_directories_write d p bytes
  rcases write_cases d p bytes with
    ⟨refused, _⟩ | ⟨place, left, mishaps, leads, spared, flat, same, after⟩
  · exact absurd written refused
  · rcases leads.parent spared with ⟨name, above, rfl, parent⟩
    have leads' := leads.spared spares
    refine ⟨read_eq_ok_iff.2 ⟨name :: above, leads', ?_, flat⟩, Or.inl ⟨_, leads'⟩⟩
    rw [after, same written, standing]
    exact congrArg Standing.of
      (entry?_put_self (d := { d with mishaps := mishaps }) (by simp) parent)

/-- What was moved is read under its new path. -/
theorem read_renameFile {old new : Path} {source target : String} {bytes : List UInt8}
    (leaves : old.EndsIn source) (enters : new.EndsIn target) (held : d.read old = .ok bytes)
    (moved : (d.renameFile old new).1 = .ok ()) : (d.renameFile old new).2.read new = .ok bytes := by
  have spares : Spares (fun _ => true) d (d.renameFile old new).2 :=
    spares_renameFile leaves enters rfl rfl d
  rcases renameFile_cases d old new with
    ⟨refused, _⟩ | ⟨place, goal, left, _, leads, stands, _, aim, free, flat, same⟩
  · exact absurd moved refused
  · -- What was read is what stood where the old path leads, and that was moved.
    have read : d.read old = .ok left := read_eq_ok_iff.2 ⟨place, leads, stands, by assumption⟩
    obtain rfl : left = bytes := Except.ok.inj (read.symm.trans held)
    have after : (d.renameFile old new).2.LeadsTo new goal := aim.spared spares
    rcases leads.place_eq leaves with ⟨above, rfl, _⟩
    rcases aim.place_eq enters with ⟨beside, rfl, parent⟩
    refine read_eq_ok_iff.2 ⟨_, after, ?_, flat⟩
    have taken : Spares (fun _ => true) d
        (({ d with mishaps := d.mishaps.tail } : Disk).erase (source :: above)) := by
      have file : ({ d with mishaps := d.mishaps.tail } : Disk).standing (source :: above) ≠
          .directory := by
        intro directory
        have : d.standing (source :: above) = .directory := directory
        rw [stands] at this
        exact absurd this (by simp)
      exact (spares_mishaps _ d d.mishaps.tail).trans (spares_erase rfl file)
    rw [same, standing]
    exact congrArg Standing.of (entry?_put_self (by simp) (taken.directories parent))

/-- Where a file was moved away, under another name, nothing is left. -/
theorem renameFile_leaves {old new : Path} {source target : String} (leaves : old.EndsIn source)
    (enters : new.EndsIn target) (other : source ≠ target)
    (moved : (d.renameFile old new).1 = .ok ()) :
    ∃ place, (d.renameFile old new).2.LeadsTo old place ∧
      (d.renameFile old new).2.standing place = .nothing := by
  have spares : Spares (fun _ => true) d (d.renameFile old new).2 :=
    spares_renameFile leaves enters rfl rfl d
  rcases renameFile_cases d old new with
    ⟨refused, _⟩ | ⟨place, goal, bytes, _, leads, stands, _, aim, free, _, same⟩
  · exact absurd moved refused
  · have there : (d.renameFile old new).2.LeadsTo old place := leads.spared spares
    rcases leads.place_eq leaves with ⟨above, rfl, parent⟩
    rcases aim.place_eq enters with ⟨beside, rfl, _⟩
    have spared : d.standing (source :: above) ≠ .directory := by simp [stands]
    have still := standing_erase_ne_directory (d := { d with mishaps := d.mishaps.tail })
      parent spared free
    refine ⟨source :: above, there, ?_⟩
    have apart : source :: above ≠ target :: beside := fun h => other (List.cons.inj h).1
    rw [same, standing_put_of_ne (by simp) still apart]
    exact congrArg Standing.of
      (entry?_erase_self (d := { d with mishaps := d.mishaps.tail }) parent)

/-! ## Directories that were made -/

/-- A path leads to a directory on a disk. -/
def Stands (d : Disk) (p : Path) : Prop :=
  ∃ place, d.LeadsTo p place ∧ d.standing place = .directory

theorem isDirectory_iff {p : Path} : d.isDirectory p = true ↔ d.Stands p := by
  constructor
  · intro h
    rw [isDirectory, find] at h
    rcases located : d.locate p with fault | s
    · simp [located, bind, Except.bind] at h
    · rcases locate_eq_ok located with ⟨place, leads, rfl⟩
      refine ⟨place, leads, ?_⟩
      rw [standing]
      rcases found : d.entry? place with _ | ⟨inside⟩ | ⟨bytes⟩
      · simp [located, bind, Except.bind, spot, found] at h
      · rfl
      · cases slash : p.endsInSlash <;> simp [located, bind, Except.bind, spot, found, slash] at h
  · rintro ⟨place, leads, stands⟩
    rcases Standing.of_eq_directory stands with ⟨inside, found⟩
    have located : d.locate p = .ok (d.spot place) := leads
    simp [isDirectory, find, located, bind, Except.bind, spot, found]

theorem makeDirectory_stands {p : Path} (made : (d.makeDirectory p).1 = .ok ()) :
    (d.makeDirectory p).2.Stands p := by
  have spares := spares_makeDirectory (fun _ => false) d p
  rcases makeDirectory_cases d p with ⟨refused, _⟩ | ⟨place, mishaps, leads, free, same⟩
  · exact absurd made refused
  · rcases leads.fresh free with ⟨name, above, rfl, _, parent⟩
    refine ⟨name :: above, leads.spared spares, ?_⟩
    rw [same]
    exact congrArg Standing.of
      (entry?_put_self (d := { d with mishaps := mishaps }) (by simp) parent)

/-- One attempt to make a directory, which counts as a success where there is one afterwards. -/
def attempt (d : Disk) (p : Path) : Except DiskFault Unit × Disk :=
  match d.makeDirectory p with
  | (.ok (), d) => (.ok (), d)
  | (.error fault, d) => if d.isDirectory p then (.ok (), d) else (.error fault, d)

theorem attempt_snd (d : Disk) (p : Path) : (d.attempt p).2 = (d.makeDirectory p).2 := by
  rw [attempt]
  rcases d.makeDirectory p with ⟨fault | ⟨⟩, e⟩
  · dsimp only
    split <;> rfl
  · rfl

theorem attempt_ok_iff {p : Path} : (d.attempt p).1 = .ok () ↔ (d.attempt p).2.Stands p := by
  have made := makeDirectory_stands (d := d) (p := p)
  rw [attempt]
  generalize d.makeDirectory p = answer at made ⊢
  rcases answer with ⟨fault | ⟨⟩, e⟩
  · dsimp only
    rw [← isDirectory_iff]
    cases there : e.isDirectory p <;> simp [there]
  · exact ⟨fun _ => made rfl, fun _ => rfl⟩

/-- Where the directory above is missing, the ones above are made and another attempt follows. -/
theorem makeFirst_of_missing {p : Path} (above : List Path)
    (missing : (d.makeDirectory p).1 = .error .notFound) :
    makeFirst (p :: above) d =
      match makeFirst above (d.makeDirectory p).2 with
      | (.error fault, d) => (.error fault, d)
      | (.ok (), d) => d.attempt p := by
  rw [makeFirst]
  generalize d.makeDirectory p = answer at missing ⊢
  rcases answer with ⟨result, e⟩
  obtain rfl : result = .error .notFound := missing
  dsimp only
  rcases makeFirst above e with ⟨fault | ⟨⟩, f⟩
  · rfl
  · rfl

theorem makeFirst_of_ne {p : Path} (above : List Path)
    (answered : (d.makeDirectory p).1 ≠ .error .notFound) :
    makeFirst (p :: above) d = d.attempt p := by
  rw [makeFirst, attempt]
  generalize d.makeDirectory p = answer at answered ⊢
  rcases answer with ⟨fault | ⟨⟩, e⟩
  · cases fault with
    | notFound => exact absurd rfl answered
    | _ => rfl
  · rfl

/-- The first of some directories is there when making them succeeds. -/
theorem makeFirst_stands {p : Path} (above : List Path)
    (made : (makeFirst (p :: above) d).1 = .ok ()) : (makeFirst (p :: above) d).2.Stands p := by
  by_cases missing : (d.makeDirectory p).1 = .error .notFound
  · rw [makeFirst_of_missing above missing] at made ⊢
    generalize makeFirst above (d.makeDirectory p).2 = answer at made ⊢
    rcases answer with ⟨fault | ⟨⟩, e⟩
    · exact absurd made (by simp)
    · exact attempt_ok_iff.1 made
  · rw [makeFirst_of_ne above missing] at made ⊢
    exact attempt_ok_iff.1 made

theorem makeDirectories_stands {p : Path} {name : String} (ends : p.EndsIn name)
    (made : (d.makeDirectories p).1 = .ok ()) : (d.makeDirectories p).2.Stands p := by
  have full : ¬ p.text.isEmpty = true := by
    rw [ends.nonempty]
    simp
  rw [makeDirectories, if_neg full] at made ⊢
  exact makeFirst_stands _ made

theorem Leads.snoc {place mid final : Place} {names : List String} {name : String}
    (leads : d.Leads place names mid) (through : d.standing mid = .directory)
    (moves : next? mid name = some final) : d.Leads place (names ++ [name]) final :=
  Leads.append_iff.2 ⟨mid, leads, leads_single.2 ⟨through, moves⟩⟩

/-- Where a directory stands, the paths of its entries are steady. -/
theorem Stands.steady_child {p : Path} {name : String} (stands : d.Stands p)
    (ends : (p.child name).EndsIn name) (whole : '/' ∉ name.toList) (named : name.toList ≠ [])
    (short : name.utf8ByteSize ≤ longestName) : d.Steady (p.child name) := by
  rcases stands with ⟨place, leads, directory⟩
  cases spelled : misspelling? (p.child name) with
  | some fault =>
      refine Or.inr (Or.inr ?_)
      rw [spelled]
      simp
  | none =>
      rcases leadsTo_iff.1 leads with ⟨_, written, way⟩
      rcases p.names_child (Path.relative_of_whole whole) with ⟨names, start⟩
      rw [Path.names_of_whole whole named] at names
      have moves : next? place name = some (name :: place) := by
        rw [next?, if_neg (by simpa using ends.here), if_neg (by simpa using ends.up),
          if_neg (Nat.not_lt.2 short)]
      have origin : d.origin (p.child name) = d.origin p := by
        rw [Disk.origin, Disk.origin, start]
      refine Or.inl ⟨name :: place, leadsTo_iff.2 ⟨spelled, ends.nonempty, ?_⟩⟩
      rw [origin, names]
      exact way.snoc directory moves

end Disk
end EmojiPicker

import EmojiPicker.Proofs.Disk.Sparing

/-!
# What a directory lists

* `Folder.mem_names_iff` — the names of a folder are those under which something is found;
* `Disk.list_eq_ok_iff`, `Disk.isFile_iff` — what is listed, and what counts as a file;
* `Path.EntryName` — a name that an entry can have;
* `Path.child_text`, `Path.child_inj` — the path of an entry, as a text;
* `Disk.LeadsTo.above_child`, `Disk.exists_mem_list` — a path to an entry leads through the
  directory, which lists the entry;
* `Disk.Anchored.child` — a path stays anchored with one name more;
* `Disk.Plain` — no name on the disk holds a slash, whatever is changed.
-/

namespace EmojiPicker

theorem Folder.mem_names_iff {f : Folder} {name : String} :
    name ∈ f.names ↔ f.find? name ≠ none := by
  induction f with
  | empty => simp [names, find?]
  | file other bytes rest ih =>
      by_cases same : other = name
      · simp [names, find?, same]
      · have apart : name ≠ other := fun h => same h.symm
        simp [names, find?, same, apart, ih]
  | directory other inside rest _ ih =>
      by_cases same : other = name
      · simp [names, find?, same]
      · have apart : name ≠ other := fun h => same h.symm
        simp [names, find?, same, apart, ih]

namespace Path

/-! ## Paths of entries -/

theorem join_front (p : Path) {q r : Path} (same : q.isAbsolute = r.isAbsolute) :
    ∃ front, (p.join q).text = front ++ q.text ∧ (p.join r).text = front ++ r.text := by
  rw [join, join, same]
  split
  · exact ⟨"", by simp, by simp⟩
  · split
    · exact ⟨p.text, rfl, rfl⟩
    · exact ⟨p.text ++ "/", rfl, rfl⟩

/-- An entry with a relative name is the directory, a slash where it needs one, and the name. -/
theorem child_text (p : Path) {name : String} (relative : (Path.mk name).isAbsolute = false) :
    ∃ slash, (slash = "" ∨ slash = "/") ∧ (p.child name).text = p.text ++ slash ++ name := by
  rw [child, join, relative]
  cases empty : p.text.isEmpty with
  | true =>
      refine ⟨"", Or.inl rfl, ?_⟩
      simp [String.isEmpty_iff.1 empty]
  | false =>
      simp only [Bool.or_self, Bool.false_eq_true, if_false]
      split
      · exact ⟨"", Or.inl rfl, by simp⟩
      · exact ⟨"/", Or.inr rfl, rfl⟩

/-- A name that an entry can have: it is not empty, holds no slash, and is no step up or nowhere. -/
structure EntryName (name : String) : Prop where
  whole : '/' ∉ name.toList
  present : name.toList ≠ []
  here : name ≠ "."
  up : name ≠ ".."

/-- Entries of one directory with different names have different paths. -/
theorem child_inj (p : Path) {name other : String} (first : (Path.mk name).isAbsolute = false)
    (second : (Path.mk other).isAbsolute = false) (same : p.child name = p.child other) :
    name = other := by
  have absolute : (Path.mk name).isAbsolute = (Path.mk other).isAbsolute := first.trans second.symm
  rcases p.join_front absolute with ⟨front, left, right⟩
  have texts : front ++ name = front ++ other := by
    calc front ++ name = (p.child name).text := left.symm
      _ = (p.child other).text := congrArg Path.text same
      _ = front ++ other := right
  have chars := congrArg String.toList texts
  simp only [String.toList_append, List.append_cancel_left_eq] at chars
  exact String.toList_inj.1 chars

namespace EntryName

variable {name : String}

theorem relative (entry : EntryName name) : (Path.mk name).isAbsolute = false :=
  relative_of_whole entry.whole

theorem names_child (entry : EntryName name) (p : Path) :
    (p.child name).names = p.names ++ [name] := by
  rw [(p.names_child entry.relative).1, names_of_whole entry.whole entry.present]

theorem origin_child (entry : EntryName name) (p : Path) (d : Disk) :
    d.origin (p.child name) = d.origin p := by
  rw [Disk.origin, Disk.origin, (p.names_child entry.relative).2]

theorem endsIn_child (entry : EntryName name) (p : Path) : (p.child name).EndsIn name := by
  refine ⟨?_, entry.here, entry.up⟩
  rw [entry.names_child p]
  exact List.getLast?_concat

/-- A path that ends in a name is not written as one of a directory. -/
theorem flat_child (entry : EntryName name) (p : Path) : (p.child name).endsInSlash = false := by
  rcases p.join_text ⟨name⟩ with ⟨front, text⟩
  rcases List.eq_nil_or_concat name.toList with none | ⟨before, last, chars⟩
  · exact absurd none entry.present
  · rw [List.concat_eq_append] at chars
    have other : last ≠ '/' := fun same => entry.whole (by simp [chars, same])
    rw [endsInSlash, child, text, chars, ← List.append_assoc, List.getLast?_concat]
    simpa using other

end EntryName

end Path

namespace Disk

variable {d e : Disk} {own : String → Bool}

/-! ## Questions -/

theorem list_eq_ok_iff {p : Path} {names : List String} :
    d.list p = .ok names ↔
      ∃ place inside, d.LeadsTo p place ∧ d.entry? place = some (.directory inside) ∧
        inside.names = names := by
  rw [list]
  rcases located : d.locate p with fault | s
  · simp [bind, Except.bind, LeadsTo, located]
  · rcases locate_eq_ok located with ⟨place, leads, rfl⟩
    constructor
    · intro listed
      rcases found : d.entry? place with _ | ⟨inside⟩ | ⟨bytes⟩
      · simp [bind, Except.bind, spot, found] at listed
      · refine ⟨place, inside, leads, found, ?_⟩
        simpa [bind, Except.bind, spot, found] using listed
      · simp [bind, Except.bind, spot, found] at listed
    · rintro ⟨other, inside, led, found, rfl⟩
      obtain rfl : other = place := leads.unique led
      simp [bind, Except.bind, spot, found]

/-- A path is one of a file if it can be read. -/
theorem isFile_iff {p : Path} : d.isFile p = true ↔ ∃ bytes, d.read p = .ok bytes := by
  rw [isFile, read]
  rcases d.find p with fault | ⟨inside⟩ | ⟨bytes⟩
  · simp [bind, Except.bind]
  · simp [bind, Except.bind]
  · simp [bind, Except.bind]

/-! ## The way to an entry -/

/-- A part of a usable text is usable. -/
theorem misspelling?_front {front back : String} (h : misspelling? ⟨front ++ back⟩ = none) :
    misspelling? ⟨front⟩ = none := by
  rw [misspelling?] at h ⊢
  split at h
  · exact absurd h (by simp)
  · next clean =>
      split at h
      · exact absurd h (by simp)
      · next fits =>
          have without : ¬ front.toList.contains '\x00' = true := by
            intro there
            apply clean
            simp only [List.contains_iff_mem, String.toList_append, List.mem_append] at there ⊢
            exact Or.inl there
          have short : ¬ longestPath < front.utf8ByteSize := by
            rw [String.utf8ByteSize_append] at fits
            omega
          rw [if_neg without, if_neg short]

theorem misspelling?_child {p : Path} {name : String} (entry : Path.EntryName name)
    (h : misspelling? (p.child name) = none) : misspelling? p = none := by
  rcases p.child_text entry.relative with ⟨slash, _, text⟩
  have parts : p.child name = ⟨p.text ++ (slash ++ name)⟩ := by
    rw [← String.append_assoc, ← text]
  rw [parts] at h
  exact misspelling?_front h

section Entries

variable {p : Path} {name : String} {bytes : List UInt8}

/-- A path to an entry leads to its directory first. -/
theorem LeadsTo.above_child {place : Place} (leads : d.LeadsTo (p.child name) place)
    (full : p.text.isEmpty = false) (entry : Path.EntryName name) :
    ∃ mid, d.LeadsTo p mid ∧ d.standing mid = .directory ∧ next? mid name = some place := by
  rcases leadsTo_iff.1 leads with ⟨spelled, _, way⟩
  rw [entry.origin_child, entry.names_child] at way
  rcases Leads.append_iff.1 way with ⟨mid, before, final⟩
  rcases leads_single.1 final with ⟨directory, last⟩
  exact ⟨mid, leadsTo_iff.2 ⟨misspelling?_child entry spelled, full, before⟩, directory, last⟩

/-- A file that is read through its directory is listed there. -/
theorem exists_mem_list (read : d.read (p.child name) = .ok bytes) (full : p.text.isEmpty = false)
    (entry : Path.EntryName name) : ∃ names, d.list p = .ok names ∧ name ∈ names := by
  rcases read_eq_ok_iff.1 read with ⟨place, leads, stands, _⟩
  rcases leads.above_child full entry with ⟨mid, led, directory, last⟩
  rcases Standing.of_eq_directory directory with ⟨inside, found⟩
  refine ⟨inside.names, list_eq_ok_iff.2 ⟨mid, inside, led, found, rfl⟩, ?_⟩
  rw [next?_of_ne entry.here entry.up last, standing, Standing.of_eq_file, entry?_cons, found]
    at stands
  have held : inside.find? name = some (.file bytes) := stands
  apply Folder.mem_names_iff.2
  rw [held]
  simp

/-- One name more leaves a path anchored. -/
theorem Anchored.child (anchored : d.Anchored p) (entry : Path.EntryName name) :
    d.Anchored (p.child name) := by
  rcases anchored with ⟨front, back, mid, names, leads, level⟩ | misspelled
  · refine Or.inl ⟨front, back ++ [name], mid, ?_, ?_, ?_⟩
    · rw [entry.names_child, names, List.append_assoc]
    · rw [entry.origin_child]
      exact leads
    · simp [level, Ne.symm entry.up]
  · refine Or.inr ?_
    intro usable
    exact misspelled (misspelling?_child entry usable)

end Entries

/-! ## Names without slashes -/

/-- No name on the disk holds a slash. -/
def Plain (d : Disk) : Prop :=
  ∀ name above, d.standing (name :: above) ≠ .nothing → '/' ∉ name.toList

theorem plain_of_empty (empty : d.top = .empty) : d.Plain := by
  intro name above stands
  rw [standing_eq, empty, List.reverse_cons] at stands
  -- The first name on the way leads nowhere already.
  cases way : above.reverse ++ [name] with
  | nil => exact absurd way (by simp)
  | cons first rest =>
      rw [way] at stands
      exact absurd rfl stands

/-- A path leads to a place whose name holds no slash. -/
theorem Plain.whole {p : Path} {place : Place} (plain : d.Plain) (leads : d.LeadsTo p place) :
    ∀ name ∈ place.head?, '/' ∉ name.toList := by
  intro name first
  rcases place with _ | ⟨last, above⟩
  · exact absurd first (by simp)
  obtain rfl : last = name := by simpa using first
  cases stands : d.standing (last :: above) with
  | nothing =>
      rcases leads.fresh stands with ⟨held, beside, same, member, _⟩
      cases same
      exact Path.names_whole member
  | directory => exact plain last above (by simp [stands])
  | file bytes => exact plain last above (by simp [stands])

/-- What is put somewhere is the only new name. -/
theorem Plain.put {place : Place} {entry : DiskEntry} (plain : d.Plain)
    (bare : ∀ inside, entry = .directory inside → inside = .empty)
    (spared : d.standing place ≠ .directory) (whole : ∀ name ∈ place.head?, '/' ∉ name.toList) :
    (d.put place entry).Plain := by
  cases place with
  | nil => exact plain
  | cons name above =>
      intro other beside stands
      by_cases same : other :: beside = name :: above
      · cases same
        exact whole name rfl
      · rw [standing_put_of_ne bare spared same] at stands
        exact plain other beside stands

theorem Plain.erase {place : Place} (plain : d.Plain) (spared : d.standing place ≠ .directory)
    (whole : ∀ name ∈ place.head?, '/' ∉ name.toList) : (d.erase place).Plain := by
  cases place with
  | nil => exact plain
  | cons name above =>
      intro other beside stands
      by_cases same : other :: beside = name :: above
      · cases same
        exact whole name rfl
      · rw [standing_erase_of_ne spared same] at stands
        exact plain other beside stands

theorem Plain.makeDirectory (plain : d.Plain) (p : Path) : (d.makeDirectory p).2.Plain := by
  rcases makeDirectory_cases d p with ⟨_, mishaps, same⟩ | ⟨place, mishaps, leads, free, same⟩
  · rw [same]
    exact plain
  · rw [same]
    have spared : d.standing place ≠ .directory := by simp [free]
    exact Plain.put (d := { d with mishaps := mishaps }) plain (by simp) spared (plain.whole leads)

theorem Plain.makeDirectories (plain : d.Plain) (p : Path) : (d.makeDirectories p).2.Plain :=
  makeDirectories_relates (R := fun d e => d.Plain → e.Plain) (fun _ => id)
    (fun first second => second ∘ first) (fun _ q _ before => before.makeDirectory q) d plain

theorem Plain.write (plain : d.Plain) (p : Path) (bytes : List UInt8) :
    (d.write p bytes).2.Plain := by
  rcases write_cases d p bytes with
    ⟨_, mishaps, same⟩ | ⟨place, left, mishaps, leads, spared, _, _, same⟩
  · rw [same]
    exact plain
  · rw [same]
    exact Plain.put (d := { d with mishaps := mishaps }) plain (by simp) spared (plain.whole leads)

theorem Plain.renameFile (plain : d.Plain) (old new : Path) : (d.renameFile old new).2.Plain := by
  rcases renameFile_cases d old new with
    ⟨_, mishaps, same⟩ | ⟨source, goal, bytes, _, left, stands, _, aim, free, _, same⟩
  · rw [same]
    exact plain
  · rw [same]
    have gone : (({ d with mishaps := d.mishaps.tail } : Disk).erase source).Plain :=
      Plain.erase (d := { d with mishaps := d.mishaps.tail }) plain
        (show d.standing source ≠ .directory by simp [stands]) (plain.whole left)
    -- Without the source there is still no directory at the goal.
    have spared : (({ d with mishaps := d.mishaps.tail } : Disk).erase source).standing goal ≠
        .directory := by
      cases source with
      | nil => exact free
      | cons name above =>
          have parent : d.standing above = .directory := standing_above (by rw [stands]; simp)
          exact standing_erase_ne_directory (d := { d with mishaps := d.mishaps.tail }) parent
            (show d.standing (name :: above) ≠ .directory by simp [stands]) free
    exact gone.put (by simp) spared (plain.whole aim)

theorem Plain.removeFile (plain : d.Plain) (p : Path) : (d.removeFile p).2.Plain := by
  rcases removeFile_cases d p with same | ⟨place, bytes, leads, stands, same⟩
  · rw [same]
    exact plain
  · rw [same]
    exact plain.erase (by simp [stands]) (plain.whole leads)

end Disk
end EmojiPicker

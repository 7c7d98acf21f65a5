import EmojiPicker.Proofs.Disk.Above

/-!
# What changes of a disk touch

* `Disk.Touches` — a change makes directories on the way of some paths, and touches the files that
  some others lead to;
* `Disk.touches_makeDirectories`, `Disk.touches_makeParent`, `Disk.touches_write`,
  `Disk.touches_renameFile`, `Disk.touches_removeFile` — each change;
* `Disk.KeepsFiles` — a change keeps every file as it is;
* `Disk.Added`, `Disk.Adds` — a change keeps what stands at one place and at all places, and what it
  adds there is known.
-/

namespace EmojiPicker
namespace Disk

variable {d e f : Disk} {p q : Path} {directories files : List Path} {place : Place}

/-! ## Touching -/

/-- Every place is left as it is, or a directory is made there that one of some paths passes, or it
is no directory and the place of one of some files. -/
structure Touches (directories files : List Path) (d e : Disk) : Prop where
  workingDirectory : e.workingDirectory = d.workingDirectory
  places : ∀ place,
    e.standing place = d.standing place ∨
      (d.standing place = .nothing ∧ e.standing place = .directory ∧
        ∃ p ∈ directories, e.Passes p place) ∨
      d.standing place ≠ .directory ∧ ∃ p ∈ files, e.LeadsTo p place

namespace Touches

theorem keeps (touches : Touches directories files d e) (stands : d.standing place = .directory) :
    e.standing place = .directory := by
  rcases touches.places place with same | ⟨free, _⟩ | ⟨spared, _⟩
  · exact same.trans stands
  · rw [stands] at free
    exact absurd free (by simp)
  · exact absurd stands spared

/-- Ways through directories stay. -/
theorem spares (touches : Touches directories files d e) : Spares (fun _ => true) d e where
  workingDirectory := touches.workingDirectory
  directories := touches.keeps
  files := by simp

theorem of_standing (workingDirectory : e.workingDirectory = d.workingDirectory)
    (same : ∀ place, e.standing place = d.standing place) : Touches directories files d e :=
  ⟨workingDirectory, fun place => Or.inl (same place)⟩

theorem refl (d : Disk) : Touches directories files d d :=
  of_standing rfl fun _ => rfl

theorem trans (first : Touches directories files d e) (second : Touches directories files e f) :
    Touches directories files d f where
  workingDirectory := second.workingDirectory.trans first.workingDirectory
  places := by
    intro place
    -- What was on the way or led somewhere after the first change does so after the second one.
    rcases second.places place with same | ⟨free, made, passes⟩ | ⟨spared, leads⟩
    · rw [same]
      rcases first.places place with same | ⟨free, made, q, member, passes⟩ |
        ⟨spared, q, member, leads⟩
      · exact Or.inl same
      · exact Or.inr (Or.inl ⟨free, made, q, member, passes.spared second.spares⟩)
      · exact Or.inr (Or.inr ⟨spared, q, member, leads.spared second.spares⟩)
    · rcases first.places place with same | ⟨_, stands, _⟩ | ⟨spared, q, member, leads⟩
      · exact Or.inr (Or.inl ⟨same.symm.trans free, made, passes⟩)
      · rw [stands] at free
        exact absurd free (by simp)
      · exact Or.inr (Or.inr ⟨spared, q, member, leads.spared second.spares⟩)
    · refine Or.inr (Or.inr ⟨?_, leads⟩)
      intro stands
      exact spared (first.keeps stands)

theorem weaken {more others : List Path} (touches : Touches directories files d e)
    (first : directories ⊆ more) (second : files ⊆ others) : Touches more others d e where
  workingDirectory := touches.workingDirectory
  places := by
    intro place
    rcases touches.places place with same | ⟨free, made, q, member, passes⟩ |
      ⟨spared, q, member, leads⟩
    · exact Or.inl same
    · exact Or.inr (Or.inl ⟨free, made, q, first member, passes⟩)
    · exact Or.inr (Or.inr ⟨spared, q, second member, leads⟩)

end Touches

/-! ## The operations -/

/-- A change at one place only. -/
theorem touches_of_ne (workingDirectory : e.workingDirectory = d.workingDirectory)
    (elsewhere : ∀ other, other ≠ place → e.standing other = d.standing other)
    (there : e.standing place = d.standing place ∨
      (d.standing place = .nothing ∧ e.standing place = .directory ∧
        ∃ p ∈ directories, e.Passes p place) ∨
      d.standing place ≠ .directory ∧ ∃ p ∈ files, e.LeadsTo p place) :
    Touches directories files d e where
  workingDirectory := workingDirectory
  places := by
    intro other
    by_cases same : other = place
    · rw [same]
      exact there
    · exact Or.inl (elsewhere other same)

theorem touches_mishaps (d : Disk) (mishaps : List Mishap) :
    Touches directories files d { d with mishaps := mishaps } :=
  Touches.of_standing rfl fun _ => rfl

theorem touches_makeDirectory (d : Disk)
    (on : ∀ {e : Disk} {place}, e.LeadsTo p place → e.Passes q place) :
    Touches [q] files d (d.makeDirectory p).2 := by
  have spares := spares_makeDirectory (fun _ => true) d p
  rcases makeDirectory_cases d p with ⟨_, mishaps, same⟩ | ⟨place, mishaps, leads, free, same⟩
  · rw [same]
    exact touches_mishaps d mishaps
  · rcases leads.fresh free with ⟨name, above, rfl, _, parent⟩
    have there := on (leads.spared spares)
    rw [same] at there ⊢
    let next : Disk := { d with mishaps := mishaps }
    have spared : d.standing (name :: above) ≠ .directory := by simp [free]
    have elsewhere : ∀ other, other ≠ name :: above →
        (next.put (name :: above) (.directory .empty)).standing other = d.standing other := by
      intro other ne
      exact standing_put_of_ne (d := next) (by simp) spared ne
    refine touches_of_ne (put_workingDirectory _ _ _) elsewhere ?_
    refine Or.inr (Or.inl ⟨free, ?_, q, List.mem_singleton_self q, there⟩)
    exact congrArg Standing.of (entry?_put_self (d := next) (by simp) parent)

theorem touches_makeFirst {paths : List Path}
    (on : ∀ p ∈ paths, ∀ {e : Disk} {place}, e.LeadsTo p place → e.Passes q place) (d : Disk) :
    Touches [q] files d (makeFirst paths d).2 :=
  makeFirst_relates Touches.refl Touches.trans
    (fun d p member => touches_makeDirectory d (on p member)) d

theorem touches_makeDirectories (d : Disk) (p : Path) :
    Touches [p] files d (d.makeDirectories p).2 := by
  rw [makeDirectories]
  split
  · exact Touches.refl d
  · refine touches_makeFirst ?_ d
    intro q member e place leads
    rcases List.mem_cons.1 member with rfl | member
    · exact leads.passes
    · exact leads.passes_of_heads (Path.heads_of_mem_above member)

/-- The directories above an entry are those on the way to the directory that it lies in. -/
theorem touches_makeParent {name : String} (entry : Path.EntryName name) (d : Disk) :
    Touches [p] files d (d.makeParent (p.child name)).2 := by
  refine touches_makeFirst ?_ d
  intro q member e place leads
  have heads := Path.heads_of_mem_above member
  rcases heads.names with ⟨more, some, names⟩
  rw [entry.names_child] at names
  have origin : e.origin p = e.origin q := by
    rw [← entry.origin_child p e, Disk.origin, Disk.origin, heads.isAbsolute_eq]
  refine ⟨q.names, ?_, ?_⟩
  · -- One of the names behind is that of the entry.
    rcases List.eq_nil_or_concat more with rfl | ⟨front, last, rfl⟩
    · exact absurd rfl some
    · rw [List.concat_eq_append, ← List.append_assoc] at names
      exact ⟨front, (List.append_inj_left' names rfl).symm⟩
  · rw [origin]
    exact (leadsTo_iff.1 leads).2.2

theorem touches_put_file (leads : d.LeadsTo p place) (spared : d.standing place ≠ .directory)
    (bytes : List UInt8) :
    Touches directories [p] d (d.put place (.file bytes)) := by
  rcases leads.parent spared with ⟨name, above, rfl, parent⟩
  have elsewhere : ∀ other, other ≠ name :: above →
      (d.put (name :: above) (.file bytes)).standing other = d.standing other := by
    intro other ne
    exact standing_put_of_ne (by simp) spared ne
  have spares : Spares (fun _ => true) d _ := spares_put_file rfl spared bytes
  exact touches_of_ne (put_workingDirectory _ _ _) elsewhere
    (Or.inr (Or.inr ⟨spared, p, List.mem_singleton_self p, leads.spared spares⟩))

theorem touches_erase {bytes : List UInt8} (leads : d.LeadsTo p place)
    (stands : d.standing place = .file bytes) : Touches directories [p] d (d.erase place) := by
  have spared : d.standing place ≠ .directory := by simp [stands]
  rcases leads.parent spared with ⟨name, above, rfl, parent⟩
  have elsewhere : ∀ other, other ≠ name :: above →
      (d.erase (name :: above)).standing other = d.standing other := by
    intro other ne
    exact standing_erase_of_ne spared ne
  have spares : Spares (fun _ => true) d _ := spares_erase rfl spared
  exact touches_of_ne (erase_workingDirectory _ _) elsewhere
    (Or.inr (Or.inr ⟨spared, p, List.mem_singleton_self p, leads.spared spares⟩))

theorem touches_write (d : Disk) (p : Path) (bytes : List UInt8) :
    Touches directories [p] d (d.write p bytes).2 := by
  rcases write_cases d p bytes with
    ⟨_, mishaps, same⟩ | ⟨place, left, mishaps, leads, spared, _, _, same⟩
  · rw [same]
    exact touches_mishaps d mishaps
  · rw [same]
    have led := leads.spared (spares_mishaps (fun _ => true) d mishaps)
    exact (touches_mishaps d mishaps).trans (touches_put_file led spared left)

theorem touches_removeFile (d : Disk) (p : Path) :
    Touches directories [p] d (d.removeFile p).2 := by
  rcases removeFile_cases d p with same | ⟨place, bytes, leads, stands, same⟩
  · rw [same]
    exact Touches.refl d
  · rw [same]
    exact touches_erase leads stands

theorem touches_renameFile (d : Disk) (old new : Path) :
    Touches directories [new, old] d (d.renameFile old new).2 := by
  rcases renameFile_cases d old new with
    ⟨_, mishaps, same⟩ | ⟨source, goal, bytes, _, left, stands, _, aim, free, _, same⟩
  · rw [same]
    exact touches_mishaps d mishaps
  · have removed : Touches directories [new, old] d
        (({ d with mishaps := d.mishaps.tail } : Disk).erase source) := by
      have led := left.spared (spares_mishaps (fun _ => true) d d.mishaps.tail)
      have gone : Touches directories [old] _ _ := touches_erase led stands
      exact (touches_mishaps d _).trans (gone.weaken (List.Subset.refl _) (by simp))
    have spared : (({ d with mishaps := d.mishaps.tail } : Disk).erase source).standing goal ≠
        .directory := by
      have file : d.standing source ≠ .directory := by simp [stands]
      rcases left.parent file with ⟨name, above, rfl, parent⟩
      exact standing_erase_ne_directory (d := { d with mishaps := d.mishaps.tail }) parent file free
    have put : Touches directories [new] _ _ :=
      touches_put_file (aim.spared removed.spares) spared bytes
    rw [same]
    exact removed.trans (put.weaken (List.Subset.refl _) (by simp))

/-! ## Files that stay -/

/-- Every file is kept, with what it holds. -/
def KeepsFiles (d e : Disk) : Prop :=
  ∀ place bytes, d.standing place = .file bytes → e.standing place = .file bytes

theorem KeepsFiles.refl (d : Disk) : d.KeepsFiles d :=
  fun _ _ => id

theorem KeepsFiles.trans (first : d.KeepsFiles e) (second : e.KeepsFiles f) : d.KeepsFiles f :=
  fun place bytes stands => second place bytes (first place bytes stands)

/-- A change that has no kind of names for its own has the same files before and after it. -/
theorem Spares.standing_file_iff {own : String → Bool} {bytes : List UInt8} (spares : Spares own d e)
    (foreign : ∀ name, own name = false) :
    e.standing place = .file bytes ↔ d.standing place = .file bytes := by
  cases place with
  | nil => simp [standing, entry?, Folder.entry?, Standing.of]
  | cons name above => exact spares.files (foreign name)

theorem keepsFiles_makeParent (d : Disk) (p : Path) : d.KeepsFiles (d.makeParent p).2 :=
  fun _ _ => ((spares_makeParent (fun _ => false) d p).standing_file_iff fun _ => rfl).2

/-! ## Adding -/

/-- A place is as it was. Or nothing stood there, and now a directory does that one of some paths
passes, or a file that one path leads to, with bytes of some kind. -/
def Added (directories : List Path) (file : Path) (held : List UInt8 → Prop) (d e : Disk)
    (place : Place) : Prop :=
  e.standing place = d.standing place ∨
    d.standing place = .nothing ∧
      ((e.standing place = .directory ∧ ∃ p ∈ directories, e.Passes p place) ∨
        ∃ bytes, e.standing place = .file bytes ∧ held bytes ∧ e.LeadsTo file place)

/-- Whatever stands somewhere stays, and what is added is known. -/
structure Adds (directories : List Path) (file : Path) (held : List UInt8 → Prop) (d e : Disk) :
    Prop where
  workingDirectory : e.workingDirectory = d.workingDirectory
  places : ∀ place, Added directories file held d e place

section Adding

variable {held : List UInt8 → Prop}

theorem Added.stays (added : Added directories p held d e place)
    (stands : d.standing place ≠ .nothing) : e.standing place = d.standing place := by
  rcases added with same | ⟨free, _⟩
  · exact same
  · exact absurd free stands

theorem Added.trans (first : Added directories p held d e place)
    (second : Added directories p held e f place) (spares : Spares (fun _ => true) e f) :
    Added directories p held d f place := by
  rcases first with same | ⟨free, added⟩
  · rcases second with again | ⟨free, added⟩
    · exact Or.inl (again.trans same)
    · exact Or.inr ⟨same.symm.trans free, added⟩
  · -- What the first change added the second one keeps.
    refine Or.inr ⟨free, ?_⟩
    rcases added with ⟨made, q, member, passes⟩ | ⟨bytes, written, kind, leads⟩
    · have still := second.stays (by simp [made])
      exact Or.inl ⟨still.trans made, q, member, passes.spared spares⟩
    · have still := second.stays (by simp [written])
      exact Or.inr ⟨bytes, still.trans written, kind, leads.spared spares⟩

theorem Added.weaken {more : List Path} {kind : List UInt8 → Prop}
    (added : Added directories p held d e place) (directories_subset : directories ⊆ more)
    (held_imp : ∀ bytes, held bytes → kind bytes) : Added more p kind d e place := by
  rcases added with same | ⟨free, ⟨made, q, member, passes⟩ | ⟨bytes, written, known, leads⟩⟩
  · exact Or.inl same
  · exact Or.inr ⟨free, Or.inl ⟨made, q, directories_subset member, passes⟩⟩
  · exact Or.inr ⟨free, Or.inr ⟨bytes, written, held_imp bytes known, leads⟩⟩

namespace Adds

theorem keepsFiles (adds : Adds directories p held d e) : d.KeepsFiles e := by
  intro place bytes stands
  rw [← stands]
  exact (adds.places place).stays (by simp [stands])

theorem spares (adds : Adds directories p held d e) : Spares (fun _ => true) d e where
  workingDirectory := adds.workingDirectory
  directories := by
    intro place stands
    rw [← stands]
    exact (adds.places place).stays (by simp [stands])
  files := by simp

theorem refl (d : Disk) : Adds directories p held d d :=
  ⟨rfl, fun _ => Or.inl rfl⟩

theorem trans (first : Adds directories p held d e) (second : Adds directories p held e f) :
    Adds directories p held d f where
  workingDirectory := second.workingDirectory.trans first.workingDirectory
  places := fun place => (first.places place).trans (second.places place) second.spares

theorem weaken {more : List Path} {kind : List UInt8 → Prop}
    (adds : Adds directories p held d e) (directories_subset : directories ⊆ more)
    (held_imp : ∀ bytes, held bytes → kind bytes) : Adds more p kind d e where
  workingDirectory := adds.workingDirectory
  places := fun place => (adds.places place).weaken directories_subset held_imp

end Adds

/-- Away from the files that are touched nothing but directories is added. -/
theorem Touches.added (touches : Touches directories files d e)
    (away : ∀ p ∈ files, ¬ e.LeadsTo p place) : Added directories p held d e place := by
  rcases touches.places place with same | ⟨free, made, passes⟩ | ⟨_, q, member, leads⟩
  · exact Or.inl same
  · exact Or.inr ⟨free, Or.inl ⟨made, passes⟩⟩
  · exact absurd leads (away q member)

theorem Touches.adds (touches : Touches directories [] d e) : Adds directories p held d e where
  workingDirectory := touches.workingDirectory
  places := fun _ => touches.added (by simp)

/-- What adds something first and touches some files then adds something away from these files. -/
theorem Adds.touched {more : List Path} (adds : Adds directories p held d e)
    (touches : Touches more files e f) (place : Place) :
    Added (more ++ directories) p held d f place ∨
      d.standing place ≠ .directory ∧ ∃ q ∈ files, f.LeadsTo q place := by
  by_cases led : ∃ q ∈ files, f.LeadsTo q place
  · by_cases directory : d.standing place = .directory
    · have kept := touches.keeps (adds.spares.directories directory)
      exact Or.inl (Or.inl (kept.trans directory.symm))
    · exact Or.inr ⟨directory, led⟩
  · have first := (adds.places place).weaken (List.subset_append_right more directories) fun _ => id
    have second : Added more p held e f place :=
      touches.added fun q member leads => led ⟨q, member, leads⟩
    exact Or.inl (first.trans (second.weaken (List.subset_append_left more directories) fun _ => id)
      touches.spares)

theorem adds_mishaps (d : Disk) (mishaps : List Mishap) :
    Adds directories p held d { d with mishaps := mishaps } :=
  ⟨rfl, fun _ => Or.inl rfl⟩

theorem standing_put_file (leads : d.LeadsTo p place) (spared : d.standing place ≠ .directory)
    (bytes : List UInt8) :
    (d.put place (.file bytes)).standing place = .file bytes := by
  rcases leads.parent spared with ⟨name, above, rfl, parent⟩
  exact congrArg Standing.of (entry?_put_self (by simp) parent)

theorem adds_put_file {bytes : List UInt8} (leads : d.LeadsTo p place)
    (free : d.standing place = .nothing) (kind : held bytes) :
    Adds directories p held d (d.put place (.file bytes)) := by
  have spared : d.standing place ≠ .directory := by simp [free]
  have touched : Touches [] [p] d _ := touches_put_file leads spared bytes
  refine ⟨touched.workingDirectory, fun other => ?_⟩
  by_cases same : other = place
  · subst same
    exact Or.inr ⟨free, Or.inr ⟨bytes, standing_put_file leads spared bytes, kind,
      leads.spared touched.spares⟩⟩
  · rcases leads.parent spared with ⟨name, above, rfl, _⟩
    exact Or.inl (standing_put_of_ne (by simp) spared same)

end Adding

end Disk
end EmojiPicker

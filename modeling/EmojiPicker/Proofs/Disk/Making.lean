import EmojiPicker.Proofs.Disk.Touching

/-!
# Changes without mishaps

What fails on a disk without mishaps fails for its path, and fails again.

* `Disk.makeFirst_ok_iff` — making directories succeeds just where the nearest one stands afterwards;
* `Disk.makeDirectory_works`, `Disk.write_works` — one change of a disk without mishaps;
* `Disk.makeParent_again` — the directories above a path are not made a second time, however far
  making them got;
* `Disk.keepsFiles_write_iff`, `Disk.adds_write` — when a write keeps all files, and what it adds.
-/

namespace EmojiPicker
namespace Disk

variable {d : Disk} {p q : Path} {above paths : List Path} {bytes : List UInt8}

/-! ## Directories that stand -/

theorem makeDirectory_of_stands (stands : d.Stands p) :
    d.makeDirectory p = (.error .alreadyThere, d) := by
  rcases stands with ⟨place, leads, directory⟩
  rcases Standing.of_eq_directory directory with ⟨inside, found⟩
  have located : d.locate p = .ok (d.spot place) := leads
  rw [makeDirectory, located, spot, found]

theorem attempt_of_stands (stands : d.Stands p) : d.attempt p = (.ok (), d) := by
  rw [attempt, makeDirectory_of_stands stands]
  dsimp only
  rw [if_pos (isDirectory_iff.2 stands)]

theorem makeFirst_of_stands (above : List Path) (stands : d.Stands p) :
    makeFirst (p :: above) d = (.ok (), d) := by
  rw [makeFirst_of_ne above, attempt_of_stands stands]
  rw [makeDirectory_of_stands stands]
  simp

/-- Below a directory that is missing no directory can be made. -/
theorem makeDirectory_of_not_stands (heads : q.Heads p) (missing : ¬ d.Stands q) :
    ∃ fault, d.makeDirectory p = (.error fault, d) := by
  rw [makeDirectory]
  cases located : d.locate p with
  | error fault => exact ⟨fault, rfl⟩
  | ok s =>
      rcases locate_eq_ok located with ⟨place, leads, _⟩
      exact absurd (leads.stands_of_heads heads) missing

theorem not_stands_of_heads (heads : q.Heads p) (missing : ¬ d.Stands q) : ¬ d.Stands p := by
  rintro ⟨place, leads, _⟩
  exact missing (leads.stands_of_heads heads)

/-! ## How far making directories gets -/

/-- The nearest of some directories stands just if making them succeeds. -/
theorem makeFirst_ok_iff (nested : (p :: above).Pairwise fun p q => q.Heads p) :
    (makeFirst (p :: above) d).1 = .ok () ↔ (makeFirst (p :: above) d).2.Stands p := by
  refine ⟨makeFirst_stands above, ?_⟩
  -- By induction on the directories above: if one of them cannot be made, none below it stands.
  induction above generalizing p d with
  | nil =>
      by_cases missing : (d.makeDirectory p).1 = .error .notFound
      · rw [makeFirst_of_missing [] missing, makeFirst]
        exact attempt_ok_iff.2
      · rw [makeFirst_of_ne [] missing]
        exact attempt_ok_iff.2
  | cons q above ih =>
      rcases List.pairwise_cons.1 nested with ⟨heads, nested⟩
      by_cases missing : (d.makeDirectory p).1 = .error .notFound
      · have first := ih (d := (d.makeDirectory p).2) nested
        rw [makeFirst_of_missing (q :: above) missing]
        generalize makeFirst (q :: above) (d.makeDirectory p).2 = answer at first ⊢
        rcases answer with ⟨fault | ⟨⟩, e⟩
        · have failed : ¬ e.Stands q := fun stands => absurd (first stands) (by simp)
          intro stands
          exact absurd stands (not_stands_of_heads (heads q List.mem_cons_self) failed)
        · exact attempt_ok_iff.2
      · rw [makeFirst_of_ne (q :: above) missing]
        exact attempt_ok_iff.2

/-! ## Disks without mishaps -/

/-- A disk without mishaps makes a directory or stays as it is. -/
theorem makeDirectory_works (works : d.mishaps = []) (p : Path) :
    (∃ fault, d.makeDirectory p = (.error fault, d)) ∨
      (d.makeDirectory p).1 = .ok () ∧ (d.makeDirectory p).2.mishaps = [] := by
  rw [makeDirectory]
  split
  · exact Or.inl ⟨_, rfl⟩
  · exact Or.inl ⟨_, rfl⟩
  · next place _ =>
      have next : d.nextMishap = (.none, d) := by rw [nextMishap, works]
      rw [next]
      refine Or.inr ⟨rfl, ?_⟩
      cases place <;> exact works

theorem mishaps_makeFirst (works : d.mishaps = []) (paths : List Path) :
    (makeFirst paths d).2.mishaps = [] := by
  refine makeFirst_relates (R := fun d e => d.mishaps = [] → e.mishaps = []) (fun _ => id)
    (fun first second => second ∘ first) ?_ d works
  intro d p _ works
  rcases makeDirectory_works works p with ⟨fault, refused⟩ | ⟨_, still⟩
  · rw [refused]
    exact works
  · exact still

/-- Where a directory is refused, and the ones above are left as they are, all is left as it is. -/
theorem makeFirst_of_refused {fault : DiskFault} (refused : d.makeDirectory p = (.error fault, d))
    (still : (makeFirst above d).2 = d) : (makeFirst (p :: above) d).2 = d := by
  by_cases missing : (d.makeDirectory p).1 = .error .notFound
  · rw [makeFirst_of_missing above missing, refused]
    generalize makeFirst above d = answer at still ⊢
    rcases answer with ⟨fault | ⟨⟩, e⟩
    · exact still
    · obtain rfl : e = d := still
      rw [attempt_snd, refused]
  · rw [makeFirst_of_ne above missing, attempt_snd, refused]

theorem attempt_works (works : d.mishaps = []) (p : Path) :
    (d.attempt p).1 = .ok () ∨
      ∃ fault, d.makeDirectory p = (.error fault, d) ∧ (d.attempt p).2 = d := by
  rcases makeDirectory_works works p with ⟨fault, refused⟩ | ⟨made, _⟩
  · refine Or.inr ⟨fault, refused, ?_⟩
    rw [attempt_snd, refused]
  · refine Or.inl (attempt_ok_iff.2 ?_)
    rw [attempt_snd]
    exact makeDirectory_stands made

/-- Where the directories above cannot be made, another attempt at the nearest one is refused. -/
theorem refused_of_failed {e : Disk} {cause : DiskFault}
    (nested : (p :: above).Pairwise fun p q => q.Heads p)
    (failed : makeFirst above d = (.error cause, e)) :
    ∃ fault, e.makeDirectory p = (.error fault, e) := by
  cases above with
  | nil => exact absurd failed (by simp [makeFirst])
  | cons q above =>
      rcases List.pairwise_cons.1 nested with ⟨heads, nested⟩
      have missing : ¬ e.Stands q := by
        intro stands
        have law := makeFirst_ok_iff (d := d) nested
        rw [failed] at law
        exact absurd (law.2 stands) (by simp)
      exact makeDirectory_of_not_stands (heads q List.mem_cons_self) missing

/-- What making directories left behind is not changed by making them again. -/
theorem makeFirst_again (works : d.mishaps = []) (nested : paths.Pairwise fun p q => q.Heads p) :
    (makeFirst paths (makeFirst paths d).2).2 = (makeFirst paths d).2 := by
  induction paths generalizing d with
  | nil => rfl
  | cons p above ih =>
      by_cases made : (makeFirst (p :: above) d).1 = .ok ()
      · rw [makeFirst_of_stands above (makeFirst_stands above made)]
      by_cases missing : (d.makeDirectory p).1 = .error .notFound
      · have unchanged : (d.makeDirectory p).2 = d := by
          rcases makeDirectory_works works p with ⟨fault, refused⟩ | ⟨first, _⟩
          · rw [refused]
          · exact absurd (first.symm.trans missing) (by simp)
        have again := ih works (List.pairwise_cons.1 nested).2
        have still := mishaps_makeFirst works above
        have between := makeFirst_of_missing above missing
        rw [unchanged] at between
        rcases upper : makeFirst above d with ⟨cause | ⟨⟩, e⟩
        -- Wherever it stopped, the attempts from there are refused again.
        · rw [upper] at again between
          rw [between]
          rcases refused_of_failed nested upper with ⟨fault, refused⟩
          exact makeFirst_of_refused refused again
        · rw [upper] at again still between
          dsimp only at between
          rw [between] at made ⊢
          rcases attempt_works still p with first | ⟨fault, refused, same⟩
          · exact absurd first made
          · rw [same]
            exact makeFirst_of_refused refused again
      · rw [makeFirst_of_ne above missing] at made ⊢
        rcases attempt_works works p with first | ⟨fault, _, same⟩
        · exact absurd first made
        · rw [same, makeFirst_of_ne above missing, same]

theorem makeParent_again (works : d.mishaps = []) (p : Path) :
    ((d.makeParent p).2.makeParent p).2 = (d.makeParent p).2 :=
  makeFirst_again works p.pairwise_above

/-- A disk without mishaps takes a write or stays as it is. -/
theorem write_works (works : d.mishaps = []) (p : Path) (bytes : List UInt8) :
    (∃ fault, d.write p bytes = (.error fault, d)) ∨ (d.write p bytes).1 = .ok () := by
  rw [write.eq_def]
  split
  · exact Or.inl ⟨_, rfl⟩
  · exact Or.inl ⟨_, rfl⟩
  · split
    · exact Or.inl ⟨_, rfl⟩
    · have next : d.nextMishap = (.none, d) := by rw [nextMishap, works]
      rw [next]
      exact Or.inr rfl

/-- A file takes new bytes. -/
theorem write_of_read {held : List UInt8} (works : d.mishaps = []) (read : d.read p = .ok held)
    (bytes : List UInt8) : (d.write p bytes).1 = .ok () := by
  rcases read_eq_ok_iff.1 read with ⟨place, leads, stands, flat⟩
  have located : d.locate p = .ok (d.spot place) := leads
  have next : d.nextMishap = (.none, d) := by rw [nextMishap, works]
  rw [write.eq_def, located, spot, Standing.of_eq_file.1 stands]
  simp [flat, next]

/-- A write keeps all files if the one at its path holds the same bytes already. -/
theorem keepsFiles_write_iff (works : d.mishaps = []) (bytes : List UInt8) :
    d.KeepsFiles (d.write p bytes).2 ↔ ∀ held, d.read p = .ok held → held = bytes := by
  constructor
  · intro keeps held read
    rcases read_eq_ok_iff.1 read with ⟨place, leads, stands, flat⟩
    have written := (read_write (write_of_read works read bytes)).1
    have after := leads.spared (spares_directories_write d p bytes)
    have still := read_eq_ok_iff.2 ⟨place, after, keeps place held stands, flat⟩
    exact Except.ok.inj (still.symm.trans written)
  · intro same place held stands
    rcases write_cases d p bytes with
      ⟨_, mishaps, left⟩ | ⟨goal, left, mishaps, leads, spared, flat, complete, after⟩
    · rw [left]
      exact stands
    · rcases leads.parent spared with ⟨name, above, rfl, parent⟩
      rw [after]
      by_cases here : place = name :: above
      · subst here
        have read := read_eq_ok_iff.2 ⟨_, leads, stands, flat⟩
        obtain rfl := same held read
        obtain rfl := complete (write_of_read works read held)
        exact congrArg Standing.of
          (entry?_put_self (d := { d with mishaps := mishaps }) (by simp) parent)
      · rw [standing_put_of_ne (d := { d with mishaps := mishaps }) (by simp) spared here]
        exact stands

/-- A write where no file is makes one at most, with the bytes it was given if nothing went wrong. -/
theorem adds_write {directories : List Path} {held : List UInt8 → Prop} (missing : d.isFile p = false)
    (bytes : List UInt8) (kind : ∀ left, (d.mishaps = [] → left = bytes) → held left) :
    Adds directories p held d (d.write p bytes).2 := by
  rcases write_cases d p bytes with
    ⟨_, mishaps, same⟩ | ⟨place, left, mishaps, leads, spared, flat, complete, same⟩
  · rw [same]
    exact adds_mishaps d mishaps
  · have free : d.standing place = .nothing := by
      cases stands : d.standing place with
      | nothing => rfl
      | directory => exact absurd stands spared
      | file old =>
          have read := read_eq_ok_iff.2 ⟨place, leads, stands, flat⟩
          rw [isFile_iff.2 ⟨old, read⟩] at missing
          exact absurd missing (by simp)
    have led := leads.spared (spares_mishaps (fun _ => true) d mishaps)
    rw [same]
    refine (adds_mishaps d mishaps).trans ?_
    refine adds_put_file led free (kind left fun works => complete ?_)
    rcases write_works works p bytes with ⟨fault, refused⟩ | written
    · -- Something was written.
      have stands := standing_put_file led spared left
      rw [← same, refused, free] at stands
      exact absurd stands (by simp)
    · exact written

end Disk
end EmojiPicker

import EmojiPicker.Locations
import EmojiPicker.Proofs.Disk.Making

/-!
# The configuration directory

* `Locations.places` — the directories that may become the configuration directory;
* `Locations.touches_configuration` — looking for one makes directories on the way to them, and
  nothing else;
* `Locations.steady_entry` — what lies in the one that was found stays where it is.
-/

namespace EmojiPicker
namespace Locations

variable {env : Environment} {disk : Disk} {name : String}

/-- The directories that are tried, the one below the working directory last. -/
def places (env : Environment) : List Path :=
  candidates env ++ [(Path.mk ".config").child directoryName]

theorem firstUsable_made {paths : List Path} {after : Disk} {path : Path}
    (h : firstUsable paths disk = (some path, after)) :
    path ∈ paths ∧ ∃ before : Disk,
      (before.makeDirectories path).1 = .ok () ∧ (before.makeDirectories path).2 = after := by
  induction paths generalizing disk with
  | nil => exact absurd h (by simp [firstUsable])
  | cons first rest ih =>
      rw [firstUsable] at h
      rcases made : disk.makeDirectories first with ⟨fault | ⟨⟩, next⟩
      · rw [made] at h
        rcases ih h with ⟨member, before⟩
        exact ⟨List.mem_cons_of_mem first member, before⟩
      · rw [made] at h
        cases h
        exact ⟨List.mem_cons_self, disk, by rw [made], by rw [made]⟩

theorem entryName_directoryName : Path.EntryName directoryName :=
  ⟨by decide, by decide, by decide, by decide⟩

/-- Every directory that is tried is named by the picker. -/
theorem endsIn_of_place {path : Path} (h : path ∈ places env) : path.EndsIn directoryName := by
  rcases List.mem_append.1 h with member | member
  · rcases List.mem_append.1 member with member | member
    · rcases Option.map_eq_some_iff.1 (Option.mem_toList.1 member) with ⟨home, _, rfl⟩
      exact entryName_directoryName.endsIn_child _
    · rcases Option.map_eq_some_iff.1 (Option.mem_toList.1 member) with ⟨general, _, rfl⟩
      exact entryName_directoryName.endsIn_child _
  · rw [List.mem_singleton.1 member]
    exact entryName_directoryName.endsIn_child _

/-! ## Looking for it -/

/-- Directories are tried in turn. What each attempt does to the disk, all of them do together. -/
theorem firstUsable_relates {R : Disk → Disk → Prop} (refl : ∀ d, R d d)
    (trans : ∀ {d e f}, R d e → R e f → R d f) {paths : List Path}
    (made : ∀ d : Disk, ∀ p ∈ paths, R d (d.makeDirectories p).2) (disk : Disk) :
    R disk (firstUsable paths disk).2 := by
  induction paths generalizing disk with
  | nil => exact refl disk
  | cons first rest ih =>
      have one := made disk first List.mem_cons_self
      rw [firstUsable]
      generalize disk.makeDirectories first = answer at one ⊢
      rcases answer with ⟨fault | ⟨⟩, next⟩
      · exact trans one (ih (fun d p member => made d p (List.mem_cons_of_mem first member)) next)
      · exact one

theorem configuration_relates {R : Disk → Disk → Prop} (refl : ∀ d, R d d)
    (trans : ∀ {d e f}, R d e → R e f → R d f)
    (made : ∀ d : Disk, ∀ p ∈ places env, R d (d.makeDirectories p).2) (disk : Disk) :
    R disk (configuration env disk).2 := by
  have tried := firstUsable_relates refl trans
    (fun d p member => made d p (List.mem_append_left _ member)) disk
  rw [configuration]
  generalize firstUsable (candidates env) disk = answer at tried ⊢
  rcases answer with ⟨_ | path, after⟩
  · exact trans tried (made after _ (List.mem_append_right _ List.mem_cons_self))
  · exact tried

theorem touches_configuration (env : Environment) (disk : Disk) {files : List Path} :
    Disk.Touches (places env) files disk (configuration env disk).2 :=
  configuration_relates Disk.Touches.refl Disk.Touches.trans
    (fun d p member => (d.touches_makeDirectories p).weaken
      (by simpa using member) (List.Subset.refl _)) disk

theorem mishaps_configuration (env : Environment) (works : disk.mishaps = []) :
    (configuration env disk).2.mishaps = [] := by
  refine configuration_relates (R := fun d e => d.mishaps = [] → e.mishaps = []) (fun _ => id)
    (fun first second => second ∘ first) ?_ disk works
  intro d p _ works
  rw [Disk.makeDirectories]
  split
  · exact works
  · exact Disk.mishaps_makeFirst works _

theorem configuration_mem (env : Environment) (disk : Disk) :
    (configuration env disk).1 ∈ places env := by
  rw [configuration]
  rcases chosen : firstUsable (candidates env) disk with ⟨_ | path, after⟩
  · exact List.mem_append_right _ List.mem_cons_self
  · exact List.mem_append_left _ (firstUsable_made chosen).1

/-! ## What lies in it -/

/-- The configuration directory was found or made, or has a fixed path: what lies in it stays where
it is. -/
theorem steady_entry (env : Environment) (disk : Disk) (named : Path.EntryName name)
    (short : name.utf8ByteSize ≤ Disk.longestName) :
    (entry env name disk).2.Steady (entry env name disk).1 := by
  rw [entry, configuration]
  rcases chosen : firstUsable (candidates env) disk with ⟨_ | path, after⟩
  · refine Or.inr (Or.inl ?_)
    have level : ".." ∉ Path.names ((Path.mk ".config").child directoryName) := by decide +kernel
    rw [named.names_child]
    simp [level, Ne.symm named.up]
  · rcases firstUsable_made chosen with ⟨member, before, made, rfl⟩
    have ends := endsIn_of_place (List.mem_append_left _ member)
    have stands := Disk.makeDirectories_stands ends made
    exact stands.steady_child (named.endsIn_child path) named.whole named.present short

end Locations
end EmojiPicker

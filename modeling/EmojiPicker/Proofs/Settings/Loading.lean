import EmojiPicker.Proofs.Disk.Making
import EmojiPicker.Proofs.Text.RoundTrip
import EmojiPicker.Settings.File

/-!
# Loading settings again

* `Settings.load_eq` — loading provides a file, and then reads what the path leads to;
* `Settings.provide_again` — what was provided is not provided again;
* `Settings.ofFile_provide` — where nothing could be read the settings are the defaults;
* `Settings.keepsFiles_provide_iff` — when loading keeps every file;
* `Settings.load_stable` — all of it together.

The template is written where there is no file, and whether there is one is asked before the
directories above it are made. A path that goes up through one of those leads to a file only
afterwards, and that file is lost.
-/

namespace EmojiPicker
namespace Settings

variable {d : Disk} {p : Path}

/-! ## Providing a file and reading it -/

/-- A disk with the template where there was no file. -/
def provide (d : Disk) (p : Path) : Disk :=
  if d.isFile p then d else writeTemplate d p

/-- The settings of a file, the defaults if it cannot be read. -/
def ofFile (d : Disk) (p : Path) : Settings :=
  match d.readText p with
  | .ok text => parse {} text
  | .error _ => {}

theorem load_eq (d : Disk) (p : Path) : load d p = (ofFile (provide d p) p, provide d p) := by
  unfold load ofFile
  change (match (provide d p).readText p with
    | .ok text => (parse {} text, provide d p)
    | .error _ => ({}, provide d p)) = _
  cases (provide d p).readText p <;> rfl

theorem provide_of_isFile (file : d.isFile p = true) : provide d p = d := by
  rw [provide, if_pos file]

theorem provide_of_not_isFile (missing : d.isFile p = false) :
    provide d p = ((d.makeParent p).2.write p (Text.encode template.toList)).2 := by
  rw [provide, missing]
  rfl

theorem ofFile_of_unreadable (unreadable : ∀ text, d.readText p ≠ .ok text) : ofFile d p = {} := by
  rw [ofFile]
  cases answer : d.readText p with
  | ok text => exact absurd answer (unreadable text)
  | error fault => rfl

theorem readText_of_read {bytes : List UInt8} (read : d.read p = .ok bytes) :
    d.readText p = (Text.decode bytes).mapError fun _ => .notText := by
  rw [Disk.readText, read]
  cases decoded : Text.decode bytes <;> simp [bind, Except.bind, decoded, Except.mapError]

theorem unreadable_of_not_isFile (missing : d.isFile p = false) :
    ∀ text, d.readText p ≠ .ok text := by
  intro text readable
  rw [Disk.readText] at readable
  cases answer : d.read p with
  | error fault => simp [answer, bind, Except.bind] at readable
  | ok bytes =>
      rw [Disk.isFile_iff.2 ⟨bytes, answer⟩] at missing
      exact absurd missing (by simp)

/-! ## The template in place of a missing file -/

/-- Where a file is missing it holds the template afterwards, or only directories were made and it is
still missing. -/
theorem provide_cases (works : d.mishaps = []) (missing : d.isFile p = false) :
    (provide d p).read p = .ok (Text.encode template.toList) ∨
      provide d p = (d.makeParent p).2 ∧ (provide d p).isFile p = false := by
  rw [provide_of_not_isFile missing]
  have working := Disk.mishaps_makeFirst works p.above
  rcases Disk.write_works working p (Text.encode template.toList) with ⟨fault, refused⟩ | written
  · refine Or.inr ?_
    rw [Disk.makeParent, refused]
    refine ⟨rfl, ?_⟩
    cases file : (Disk.makeFirst p.above d).2.isFile p with
    | false => rfl
    | true =>
        rcases Disk.isFile_iff.1 file with ⟨held, read⟩
        have taken := Disk.write_of_read working read (Text.encode template.toList)
        rw [refused] at taken
        exact absurd taken (by simp)
  · exact Or.inl (Disk.read_write written).1

theorem provide_again (works : d.mishaps = []) : provide (provide d p) p = provide d p := by
  cases file : d.isFile p with
  | true => rw [provide_of_isFile file, provide_of_isFile file]
  | false =>
      rcases provide_cases works file with held | ⟨same, missing⟩
      · exact provide_of_isFile (Disk.isFile_iff.2 ⟨_, held⟩)
      · -- The directories are as they were left, and the write is the one that was refused.
        calc provide (provide d p) p
          _ = (((provide d p).makeParent p).2.write p (Text.encode template.toList)).2 :=
            provide_of_not_isFile missing
          _ = ((d.makeParent p).2.write p (Text.encode template.toList)).2 := by
            rw [same, Disk.makeParent_again works]
          _ = provide d p := (provide_of_not_isFile file).symm

theorem ofFile_provide (works : d.mishaps = []) (unreadable : ∀ text, d.readText p ≠ .ok text) :
    ofFile (provide d p) p = {} := by
  cases file : d.isFile p with
  | true =>
      rw [provide_of_isFile file]
      exact ofFile_of_unreadable unreadable
  | false =>
      rcases provide_cases works file with held | ⟨_, missing⟩
      · rw [ofFile, readText_of_read held, Text.decode_encode]
        exact parse_template
      · exact ofFile_of_unreadable (unreadable_of_not_isFile missing)

/-! ## Files that are kept -/

/-- Making directories shows no file at a path where the names behind an existing way never go
up. -/
theorem not_isFile_makeParent (anchored : d.Anchored p) (missing : d.isFile p = false) :
    (d.makeParent p).2.isFile p = false := by
  cases file : (d.makeParent p).2.isFile p with
  | false => rfl
  | true =>
      rcases Disk.isFile_iff.1 file with ⟨bytes, read⟩
      rcases Disk.read_eq_ok_iff.1 read with ⟨place, leads, stands, _⟩
      rcases leads.exists_endsIn (by simp [stands]) with ⟨name, ends⟩
      have spares := Disk.spares_makeParent (fun _ => false) d p
      have before := (Disk.read_anchored spares ends rfl anchored).1 read
      rw [Disk.isFile_iff.2 ⟨bytes, before⟩] at missing
      exact absurd missing (by simp)

/-- Every file is kept, unless the path leads to one only once the directories above it are made, and
that file is not the template already. -/
theorem keepsFiles_provide_iff (works : d.mishaps = []) :
    d.KeepsFiles (provide d p) ↔
      (d.isFile p = false → ∀ held, (d.makeParent p).2.read p = .ok held →
        held = Text.encode template.toList) := by
  cases file : d.isFile p with
  | true =>
      rw [provide_of_isFile file]
      exact ⟨fun _ missing => absurd missing (by simp), fun _ => Disk.KeepsFiles.refl d⟩
  | false =>
      have made := Disk.spares_makeParent (fun _ => false) d p
      have written := Disk.keepsFiles_write_iff (p := p) (Disk.mishaps_makeFirst works p.above)
        (Text.encode template.toList)
      rw [provide_of_not_isFile file]
      constructor
      · intro keeps _
        refine written.1 fun place bytes stands => ?_
        exact keeps place bytes ((made.standing_file_iff fun _ => rfl).1 stands)
      · intro same
        exact (Disk.keepsFiles_makeParent d p).trans (written.2 (same rfl))

/-- Loading adds directories and the template, where no file can show at the path meanwhile. -/
theorem adds_provide {name : String} (entry : Path.EntryName name)
    (anchored : d.Anchored (p.child name)) :
    Disk.Adds [p] (p.child name) (fun bytes => d.mishaps = [] → bytes = Text.encode template.toList)
      d (provide d (p.child name)) := by
  cases file : d.isFile (p.child name) with
  | true =>
      rw [provide_of_isFile file]
      exact Disk.Adds.refl d
  | false =>
      rw [provide_of_not_isFile file]
      refine Disk.Adds.trans (Disk.touches_makeParent entry d).adds ?_
      refine Disk.adds_write (not_isFile_makeParent anchored file) _ fun left complete works => ?_
      exact complete (Disk.mishaps_makeFirst works _)

/-- A file that shows once the directories above a path are made is lost. -/
theorem standing_load_of_shown {place : Place} {held : List UInt8} (works : d.mishaps = [])
    (missing : d.isFile p = false) (leads : (d.makeParent p).2.LeadsTo p place)
    (shown : (d.makeParent p).2.read p = .ok held) :
    (load d p).2.standing place = .file (Text.encode template.toList) := by
  have working := Disk.mishaps_makeFirst works p.above
  have written := Disk.write_of_read working shown (Text.encode template.toList)
  rcases Disk.read_eq_ok_iff.1 (Disk.read_write written).1 with ⟨goal, led, stands, _⟩
  have still := leads.spared
    (Disk.spares_directories_write _ p (Text.encode template.toList))
  rw [load_eq, provide_of_not_isFile missing]
  obtain rfl : goal = place := still.unique led
  exact stands

set_option maxRecDepth 100000 in
/-- The template begins with a comment. -/
theorem template_head : template.toList.head? = some '#' := by
  have ofList (cs : List Char) (h : cs.head? = some '#') :
      (String.ofList cs).toList.head? = some '#' := by
    rw [String.toList_ofList, h]
  exact ofList _ (by decide +kernel)

/-! ## All of it -/

/-- Loading settings leaves the file of its path as it is. Where no text can be read from the path
beforehand the settings are the defaults, and loading again gives the same settings and the same
disk. All files are kept, except where the path leads to a file only once the directories above it
are made. -/
theorem load_stable (d : Disk) (p : Path) :
    (d.isFile p = true → (load d p).2 = d) ∧
      (d.mishaps = [] →
        load (load d p).2 p = load d p ∧
          ((∀ text, d.readText p ≠ .ok text) → (load d p).1 = {}) ∧
          (d.KeepsFiles (load d p).2 ↔
            (d.isFile p = false → ∀ held, (d.makeParent p).2.read p = .ok held →
              held = Text.encode template.toList)) ∧
          (d.Anchored p → d.KeepsFiles (load d p).2)) := by
  rw [load_eq, load_eq]
  refine ⟨provide_of_isFile, fun works => ⟨?_, ofFile_provide works, keepsFiles_provide_iff works, ?_⟩⟩
  · rw [provide_again works]
  · intro anchored
    refine (keepsFiles_provide_iff works).2 fun missing held read => ?_
    have still := not_isFile_makeParent anchored missing
    rw [Disk.isFile_iff.2 ⟨held, read⟩] at still
    exact absurd still (by simp)

/-- A file that is no text: it stays, and the settings are the defaults. -/
theorem load_stable_no_text :
    let d := (({} : Disk).write ⟨"settings.conf"⟩ [255]).2
    let p : Path := ⟨"settings.conf"⟩
    (load d p).2 = d ∧ load (load d p).2 p = load d p ∧ (load d p).1 = {} ∧
      d.KeepsFiles (load d p).2 := by
  intro d p
  have file : d.isFile p = true := by decide +kernel
  have read : d.read p = .ok [255] := by decide +kernel
  have decoded : (Text.decode [255]).toOption = none := by decide +kernel
  have unreadable : ∀ text, d.readText p ≠ .ok text := by
    intro text readable
    rw [readText_of_read read] at readable
    cases answer : Text.decode [255] <;> simp_all [Except.mapError, Except.toOption]
  have anchored : d.Anchored p := Or.inl ⟨[], p.names, d.origin p, rfl, .done _, by decide +kernel⟩
  rcases load_stable d p with ⟨untouched, rest⟩
  rcases rest rfl with ⟨again, defaults, _, kept⟩
  exact ⟨untouched file, again, defaults unreadable, kept anchored⟩

/-- Settings of a user that are lost. The path goes up through a directory that is missing, so that
it leads to no file before that directory is made. -/
theorem load_overwrites :
    let settings := Text.encode "locale = de\n".toList
    let d := (({} : Disk).write ⟨"settings.conf"⟩ settings).2
    let after := (load d ⟨"nested/../settings.conf"⟩).2
    d.mishaps = [] ∧ d.standing ["settings.conf"] = .file settings ∧
      after.standing ["settings.conf"] = .file (Text.encode template.toList) ∧
      ¬ d.KeepsFiles after := by
  intro settings d after
  have missing : d.isFile ⟨"nested/../settings.conf"⟩ = false := by decide +kernel
  have before : d.standing ["settings.conf"] = .file settings := by decide +kernel
  have leads : (d.makeParent ⟨"nested/../settings.conf"⟩).2.LeadsTo
      ⟨"nested/../settings.conf"⟩ ["settings.conf"] := by
    rw [Disk.LeadsTo]
    decide +kernel
  have shown : (d.makeParent ⟨"nested/../settings.conf"⟩).2.read ⟨"nested/../settings.conf"⟩ =
      .ok settings := by
    decide +kernel
  have lost := standing_load_of_shown rfl missing leads shown
  refine ⟨rfl, before, lost, fun keeps => ?_⟩
  -- The two texts differ in their first letters already.
  have same := Standing.file.inj ((keeps _ _ before).symm.trans lost)
  have decoded := congrArg Text.decode same
  rw [Text.decode_encode, Text.decode_encode] at decoded
  have first := congrArg List.head? (Except.ok.inj decoded)
  rw [template_head] at first
  exact absurd first (by decide)

end Settings
end EmojiPicker

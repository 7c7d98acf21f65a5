import EmojiPicker.Disk.Tree

/-!
# Places on a disk

What stands where, and where a path leads, in a form that survives changes elsewhere.

* `Standing` — what stands at a place, the contents of a directory left out;
* `Folder.standing_changeAt_of_ne`, `Folder.look_changeAt_self` — one change below a folder;
* `Disk.standing_put_of_ne`, `Disk.entry?_put_self`, `Disk.standing_erase_of_ne` — one change of a
  disk;
* `Disk.Leads`, `Disk.walk_eq_ok_iff` — where names lead, as a derivation;
* `Disk.read_eq_ok_iff` — what can be read from a path.

A change below a directory changes the directory itself, as a value. Its contents are therefore left
out of what stands at a place, and every law of a change speaks of that one place alone.
-/

namespace EmojiPicker

/-- What stands at a place, the contents of a directory left out. -/
inductive Standing where
  | nothing
  | directory
  | file (bytes : List UInt8)
  deriving DecidableEq

namespace Standing

/-- What stands where an entry is found. -/
def of : Option DiskEntry → Standing
  | none => nothing
  | some (.directory _) => directory
  | some (.file bytes) => file bytes

theorem of_eq_directory {entry : Option DiskEntry} (h : of entry = directory) :
    ∃ inside, entry = some (.directory inside) := by
  rcases entry with _ | ⟨inside⟩ | ⟨bytes⟩
  · exact absurd h (by simp [of])
  · exact ⟨inside, rfl⟩
  · exact absurd h (by simp [of])

theorem of_eq_file {entry : Option DiskEntry} {bytes : List UInt8} :
    of entry = file bytes ↔ entry = some (.file bytes) := by
  rcases entry with _ | ⟨inside⟩ | ⟨bytes⟩ <;> simp [of]

end Standing

namespace Folder

/-! ## From the top down -/

/-- What some names lead to, the first name first. -/
def look : List String → Folder → Option DiskEntry
  | [], f => some (.directory f)
  | name :: rest, f =>
      match f.find? name with
      | none => none
      | some (.file bytes) => if rest.isEmpty then some (.file bytes) else none
      | some (.directory inside) => look rest inside

theorem look_concat (names : List String) (name : String) (f : Folder) :
    look (names ++ [name]) f =
      match look names f with
      | some (.directory inside) => inside.find? name
      | _ => none := by
  induction names generalizing f with
  | nil =>
      simp only [List.nil_append, look]
      rcases f.find? name with _ | ⟨inside⟩ | ⟨bytes⟩ <;> simp
  | cons first rest ih =>
      simp only [List.cons_append, look]
      rcases f.find? first with _ | ⟨inside⟩ | ⟨bytes⟩
      · rfl
      · exact ih inside
      · cases rest <;> simp

theorem entry?_cons (f : Folder) (name : String) (above : Place) :
    f.entry? (name :: above) =
      match f.entry? above with
      | some (.directory inside) => inside.find? name
      | _ => none := rfl

theorem entry?_eq_look (f : Folder) (place : Place) : f.entry? place = look place.reverse f := by
  induction place with
  | nil => rfl
  | cons name above ih =>
      rw [List.reverse_cons, look_concat, ← ih]
      exact entry?_cons f name above

/-- What stands where some names lead to. -/
def standing (names : List String) (f : Folder) : Standing :=
  .of (look names f)

/-! ## One change -/

/-- A change of a folder that leaves an entry under one name, with nothing below it, and every other
name as it is. -/
structure Changes (change : Folder → Folder) (name : String) (left : Option DiskEntry) : Prop where
  self : ∀ f, (change f).find? name = left
  others : ∀ f other, name ≠ other → (change f).find? other = f.find? other
  bare : ∀ inside, left = some (.directory inside) → inside = .empty

variable {change : Folder → Folder} {name : String} {left : Option DiskEntry}

theorem changes_insert (name : String) {entry : DiskEntry}
    (bare : ∀ inside, entry = .directory inside → inside = .empty) :
    Changes (·.insert name entry) name (some entry) where
  self := find?_insert_self name entry
  others := fun f _ ne => find?_insert_of_ne ne entry f
  bare := fun inside h => bare inside (Option.some.inj h)

theorem changes_erase (name : String) : Changes (·.erase name) name none where
  self := find?_erase_self name
  others := fun f _ ne => find?_erase_of_ne ne f
  bare := by simp

theorem Changes.nothing_below (h : Changes change name left) (f : Folder) {rest : List String}
    (below : rest ≠ []) : standing (name :: rest) (change f) = .nothing := by
  rw [standing, look, h.self]
  rcases left with _ | ⟨inside⟩ | ⟨bytes⟩
  · rfl
  · cases rest with
    | nil => exact absurd rfl below
    | cons first more =>
        rw [h.bare inside rfl]
        rfl
  · simp [below, Standing.of]

/-- Other names lead to what they led to, if no directory is lost with everything below it. -/
theorem standing_changeAt_of_ne (h : Changes change name left) (above : List String) (f : Folder)
    (spared : standing (above ++ [name]) f ≠ .directory) {names : List String}
    (ne : names ≠ above ++ [name]) :
    standing names (changeAt change above f) = standing names f := by
  -- Down the way to the change, on which the other names may leave it at every step.
  induction above generalizing f names with
  | nil =>
      cases names with
      | nil => rfl
      | cons first rest =>
          by_cases same : name = first
          · subst same
            have below : rest ≠ [] := by
              intro h
              exact ne (by rw [h]; rfl)
            -- Neither before nor after the change does anything stand below the name.
            have before : standing (name :: rest) f = .nothing := by
              rw [standing, look]
              rw [List.nil_append, standing, look] at spared
              rcases found : f.find? name with _ | ⟨inside⟩ | ⟨bytes⟩
              · rfl
              · simp [found, look, Standing.of] at spared
              · simp [below, Standing.of]
            exact (h.nothing_below f below).trans before.symm
          · rw [changeAt, standing, standing, look, look, h.others f first same]
  | cons first above ih =>
      rw [changeAt]
      rcases found : f.find? first with _ | ⟨inside⟩ | ⟨bytes⟩
      · rfl
      · cases names with
        | nil => rfl
        | cons other rest =>
            by_cases same : first = other
            · subst same
              have deeper : standing (above ++ [name]) inside ≠ .directory := by
                simpa [standing, look, found] using spared
              have apart : rest ≠ above ++ [name] := by
                intro h
                exact ne (by rw [h]; rfl)
              have inner := ih inside deeper apart
              simpa [standing, look, found] using inner
            · simp only [standing, look, find?_insert_of_ne same]
      · rfl

theorem look_changeAt_self (h : Changes change name left) (above : List String) (f : Folder)
    (parent : standing above f = .directory) :
    look (above ++ [name]) (changeAt change above f) = left := by
  induction above generalizing f with
  | nil =>
      rw [look_concat]
      exact h.self f
  | cons first above ih =>
      rw [changeAt]
      rcases found : f.find? first with _ | ⟨inside⟩ | ⟨bytes⟩
      · simp [standing, look, found, Standing.of] at parent
      · have deeper : standing above inside = .directory := by
          simpa [standing, look, found] using parent
        simpa [look] using ih inside deeper
      · cases above <;> simp [standing, look, found, Standing.of] at parent

end Folder

namespace Disk

variable {d e : Disk}

/-- What stands at a place. -/
def standing (d : Disk) (place : Place) : Standing :=
  .of <| d.entry? place

theorem entry?_eq_look (d : Disk) (place : Place) :
    d.entry? place = Folder.look place.reverse d.top :=
  d.top.entry?_eq_look place

theorem standing_eq (d : Disk) (place : Place) :
    d.standing place = Folder.standing place.reverse d.top :=
  congrArg Standing.of (d.entry?_eq_look place)

theorem entry?_cons (d : Disk) (name : String) (above : Place) :
    d.entry? (name :: above) =
      match d.entry? above with
      | some (.directory inside) => inside.find? name
      | _ => none :=
  d.top.entry?_cons name above

/-- Something stands only in directories. -/
theorem standing_cons_of_above {name : String} {above : Place}
    (h : d.standing above ≠ .directory) : d.standing (name :: above) = .nothing := by
  rw [standing, entry?_cons]
  rcases found : d.entry? above with _ | ⟨inside⟩ | ⟨bytes⟩
  · rfl
  · exact absurd (congrArg Standing.of found) h
  · rfl

theorem standing_above {name : String} {above : Place}
    (stands : d.standing (name :: above) ≠ .nothing) : d.standing above = .directory := by
  by_cases inside : d.standing above = .directory
  · exact inside
  · exact absurd (standing_cons_of_above inside) stands

theorem standing_of_append {below : List String} {place : Place} (strict : below ≠ [])
    (h : d.standing (below ++ place) ≠ .nothing) : d.standing place = .directory := by
  induction below with
  | nil => exact absurd rfl strict
  | cons name more ih =>
      -- Whatever stands here stands in a directory, and the directory stands in the next one.
      have inside : d.standing (more ++ place) = .directory := standing_above h
      cases more with
      | nil => exact inside
      | cons next rest => exact ih (by simp) (by rw [inside]; simp)

/-! ## One change -/

theorem standing_put_of_ne {entry : DiskEntry} {name : String} {above place : Place}
    (bare : ∀ inside, entry = .directory inside → inside = .empty)
    (spared : d.standing (name :: above) ≠ .directory) (ne : place ≠ name :: above) :
    (d.put (name :: above) entry).standing place = d.standing place := by
  rw [standing_eq, List.reverse_cons] at spared
  rw [standing_eq, standing_eq]
  refine Folder.standing_changeAt_of_ne (Folder.changes_insert name bare) above.reverse d.top
    spared ?_
  intro h
  exact ne (by simpa using congrArg List.reverse h)

theorem entry?_put_self {entry : DiskEntry} {name : String} {above : Place}
    (bare : ∀ inside, entry = .directory inside → inside = .empty)
    (parent : d.standing above = .directory) :
    Disk.entry? (d.put (name :: above) entry) (name :: above) = some entry := by
  rw [standing_eq] at parent
  rw [entry?_eq_look, List.reverse_cons]
  exact Folder.look_changeAt_self (Folder.changes_insert name bare) above.reverse d.top parent

theorem standing_erase_of_ne {name : String} {above place : Place}
    (spared : d.standing (name :: above) ≠ .directory) (ne : place ≠ name :: above) :
    (d.erase (name :: above)).standing place = d.standing place := by
  rw [standing_eq, List.reverse_cons] at spared
  rw [standing_eq, standing_eq]
  refine Folder.standing_changeAt_of_ne (Folder.changes_erase name) above.reverse d.top spared ?_
  intro h
  exact ne (by simpa using congrArg List.reverse h)

theorem entry?_erase_self {name : String} {above : Place} (parent : d.standing above = .directory) :
    Disk.entry? (d.erase (name :: above)) (name :: above) = none := by
  rw [standing_eq] at parent
  rw [entry?_eq_look, List.reverse_cons]
  exact Folder.look_changeAt_self (Folder.changes_erase name) above.reverse d.top parent

@[simp]
theorem put_workingDirectory (d : Disk) (place : Place) (entry : DiskEntry) :
    (d.put place entry).workingDirectory = d.workingDirectory := by
  cases place <;> rfl

@[simp]
theorem erase_workingDirectory (d : Disk) (place : Place) :
    (d.erase place).workingDirectory = d.workingDirectory := by
  cases place <;> rfl

/-! ## Where names lead -/

/-- The place that a name leads to from another one, if the name is not too long. -/
def next? (place : Place) (name : String) : Option Place :=
  if name == "." then some place
  else if name == ".." then some place.tail
  else if longestName < name.utf8ByteSize then none
  else some (name :: place)

/-- Some names lead from a place to another one, each through a directory. -/
inductive Leads (d : Disk) : Place → List String → Place → Prop where
  | done (place : Place) : Leads d place [] place
  | step {place next final : Place} {name : String} {rest : List String}
      (through : d.standing place = .directory) (moves : next? place name = some next)
      (further : Leads d next rest final) : Leads d place (name :: rest) final

theorem Leads.append_iff {place final : Place} {names more : List String} :
    d.Leads place (names ++ more) final ↔
      ∃ mid, d.Leads place names mid ∧ d.Leads mid more final := by
  induction names generalizing place with
  | nil =>
      constructor
      · intro leads
        exact ⟨place, .done place, leads⟩
      · rintro ⟨mid, first, second⟩
        cases first
        exact second
  | cons name rest ih =>
      constructor
      · intro leads
        rcases leads with _ | ⟨through, moves, further⟩
        rcases ih.1 further with ⟨mid, first, second⟩
        exact ⟨mid, .step through moves first, second⟩
      · rintro ⟨mid, first, second⟩
        rcases first with _ | ⟨through, moves, further⟩
        exact .step through moves (ih.2 ⟨mid, further, second⟩)

theorem Leads.unique {place final other : Place} {names : List String}
    (first : d.Leads place names final) (second : d.Leads place names other) : other = final := by
  induction first with
  | done place =>
      cases second
      rfl
  | step _ moves _ ih =>
      rcases second with _ | ⟨_, alsoMoves, further⟩
      obtain rfl := Option.some.inj (moves.symm.trans alsoMoves)
      exact ih further

theorem leads_single {place final : Place} {name : String} :
    d.Leads place [name] final ↔ d.standing place = .directory ∧ next? place name = some final := by
  constructor
  · intro leads
    rcases leads with _ | ⟨through, moves, further⟩
    cases further
    exact ⟨through, moves⟩
  · rintro ⟨through, moves⟩
    exact .step through moves (.done final)

theorem step_eq_ok_iff {place : Place} {name : String} {s : Spot} :
    d.step (d.spot place) name = .ok s ↔
      d.standing place = .directory ∧ ∃ next, next? place name = some next ∧ s = d.spot next := by
  rw [step, spot, standing, next?]
  rcases found : d.entry? place with _ | ⟨inside⟩ | ⟨bytes⟩
  · simp [Standing.of]
  · have below : d.entry? (name :: place) = inside.find? name := by
      rw [entry?_cons, found]
    simp only [Standing.of, true_and]
    split
    · simp [spot, found, eq_comm]
    · split
      · simp [eq_comm]
      · split
        · simp
        · simp [spot, below, eq_comm]
  · simp [Standing.of]

/-- A walk along some names ends where they lead, and finds what stands there. -/
theorem walk_eq_ok_iff {place : Place} {names : List String} {s : Spot} :
    d.walk (d.spot place) names = .ok s ↔ ∃ final, d.Leads place names final ∧ s = d.spot final := by
  induction names generalizing place with
  | nil =>
      constructor
      · intro h
        exact ⟨place, .done place, (Except.ok.inj h).symm⟩
      · rintro ⟨final, leads, rfl⟩
        cases leads
        rfl
  | cons name rest ih =>
      constructor
      · intro h
        rw [walk] at h
        rcases stepped : d.step (d.spot place) name with fault | t
        · rw [stepped] at h
          exact absurd h (by simp [bind, Except.bind])
        · rw [stepped] at h
          rcases step_eq_ok_iff.1 stepped with ⟨through, next, moves, rfl⟩
          rcases ih.1 h with ⟨final, further, same⟩
          exact ⟨final, .step through moves further, same⟩
      · rintro ⟨final, leads, rfl⟩
        cases leads with
        | step through moves further =>
            rw [walk, step_eq_ok_iff.2 ⟨through, _, moves, rfl⟩]
            exact ih.2 ⟨final, further, rfl⟩

/-- A path leads to a place. -/
def LeadsTo (d : Disk) (p : Path) (place : Place) : Prop :=
  d.locate p = .ok (d.spot place)

theorem leadsTo_iff {p : Path} {place : Place} :
    d.LeadsTo p place ↔
      misspelling? p = none ∧ p.text.isEmpty = false ∧ d.Leads (d.origin p) p.names place := by
  rw [LeadsTo, locate]
  cases misspelling? p with
  | some fault => simp
  | none =>
      cases p.text.isEmpty with
      | true => simp
      | false =>
          simp only [Bool.false_eq_true, if_false, true_and]
          rw [walk_eq_ok_iff]
          constructor
          · rintro ⟨final, leads, same⟩
            rw [show place = final from congrArg Spot.place same]
            exact leads
          · intro leads
            exact ⟨place, leads, rfl⟩

theorem locate_eq_ok {p : Path} {s : Spot} (h : d.locate p = .ok s) :
    ∃ place, d.LeadsTo p place ∧ s = d.spot place := by
  have spotted : ∃ place, s = d.spot place := by
    rw [locate] at h
    split at h
    · exact absurd h (by simp)
    · split at h
      · exact absurd h (by simp)
      · rcases walk_eq_ok_iff.1 h with ⟨final, _, same⟩
        exact ⟨final, same⟩
  rcases spotted with ⟨place, rfl⟩
  exact ⟨place, h, rfl⟩

theorem LeadsTo.unique {p : Path} {place other : Place} (first : d.LeadsTo p place)
    (second : d.LeadsTo p other) : other = place := by
  have same : d.spot other = d.spot place := Except.ok.inj (second.symm.trans first)
  exact congrArg Spot.place same

/-- What a path leads to is read if it is a file and the path is not written as one of a
directory. -/
theorem read_eq_ok_iff {p : Path} {bytes : List UInt8} :
    d.read p = .ok bytes ↔
      ∃ place, d.LeadsTo p place ∧ d.standing place = .file bytes ∧ p.endsInSlash = false := by
  rw [read, find]
  rcases located : d.locate p with fault | s
  · simp [bind, Except.bind, LeadsTo, located]
  · rcases locate_eq_ok located with ⟨place, leads, rfl⟩
    have only : ∀ other, d.LeadsTo p other → other = place := fun _ => leads.unique
    constructor
    · intro h
      refine ⟨place, leads, ?_⟩
      -- Only a file gives bytes, and only to a path without a slash at its end.
      simp only [bind, Except.bind, spot] at h
      rcases found : d.entry? place with _ | ⟨inside⟩ | ⟨held⟩ <;> simp only [found] at h
      · exact absurd h (by simp)
      · exact absurd h (by simp)
      · cases slash : p.endsInSlash with
        | true => simp [slash] at h
        | false =>
            have same : held = bytes := by simpa [slash] using h
            refine ⟨?_, rfl⟩
            rw [standing, found, same]
            rfl
    · rintro ⟨other, led, stands, slash⟩
      rw [only other led, standing, Standing.of_eq_file] at stands
      simp [bind, Except.bind, spot, stands, slash]

end Disk
end EmojiPicker

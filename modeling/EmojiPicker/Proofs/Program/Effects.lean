import EmojiPicker.Proofs.Dictionary.Downloads
import EmojiPicker.Proofs.Picker.Located
import EmojiPicker.Proofs.Session.Saving
import EmojiPicker.Proofs.Settings.Loading

/-!
# What a run leaves on the disk

* `Task.isQuery` — the tasks that only ask;
* `Session.Tells` — a session displays more or searches, and keeps its dictionaries;
* `Program.opened`, `Program.answer` — the two stages of a run;
* `Program.Supplies` — the bytes that a task has for the cache, be it from the disk or the network;
* `Program.answer_frame` — the second stage installs what its task supplies, and does nothing else;
* `Program.opened_cases` — what the first stage adds to the disk, and that the second one ends the
  run: there is nothing to save;
* `Program.successful_iff` — what the user is told about an installation is right;
* `Program.run_effects` — all of it.

A run that waits for lines has no such stages, and saves what is picked meanwhile. Whatever the network
answers, it decides no more than which bytes a download supplies.
-/

namespace EmojiPicker

/-- A task that only asks. -/
def Task.isQuery : Task → Bool
  | .search _ | .describe _ | .categories | .recents => true
  | .install _ | .download _ | .session => false

/-! ## Downloads -/

namespace Picker

variable {σ : Type} (p : Picker σ)

theorem refreshSearch_of_closed {p : Picker σ} (closed : p.search.active = false) :
    p.refreshSearch = p := by
  rcases p.refreshSearch_cases with ⟨_, same⟩ | ⟨active, _⟩
  · exact same
  · rw [closed] at active
    exact absurd active (by simp)

theorem refreshSearch_frame :
    p.refreshSearch.dictionaries = p.dictionaries ∧ p.refreshSearch.recentsDirty = p.recentsDirty := by
  rcases p.refreshSearch_cases with ⟨_, same⟩ | ⟨_, _, same, _⟩
  · rw [same]
    exact ⟨rfl, rfl⟩
  · rw [same]
    exact ⟨rfl, rfl⟩

variable [DictionaryStore σ]

theorem completeDownload_frame (outcome : DownloadOutcome) :
    (p.completeDownload outcome).recentsDirty = p.recentsDirty ∧
      (p.completeDownload outcome).dictionaries =
        match outcome.result with
        | .error _ => p.dictionaries
        | .ok bytes => (p.dictionaries.install bytes outcome.locale).2 := by
  rw [completeDownload]
  cases outcome.result with
  | error reason =>
      dsimp only
      split
      · exact ⟨rfl, rfl⟩
      · exact ⟨rfl, rfl⟩
  | ok bytes =>
      dsimp only
      rcases p.dictionaries.install bytes outcome.locale with ⟨failure | path | active, dictionaries⟩
      · exact ⟨rfl, rfl⟩
      · rcases refreshSearch_frame (notify { p with dictionaries := dictionaries }
          (.dictionaryInstalled (Locale.normalize outcome.locale))) with ⟨installed, dirty⟩
        exact ⟨dirty, installed⟩
      · exact ⟨rfl, rfl⟩

/-- A download off the search is announced as installed just when it is. -/
theorem announced_iff {p : Picker σ} (closed : p.search.active = false) (outcome : DownloadOutcome)
    (fresh : .notice (.dictionaryInstalled (Locale.normalize outcome.locale)) ∉ p.display) :
    .notice (.dictionaryInstalled (Locale.normalize outcome.locale)) ∈
        (p.completeDownload outcome).display ↔
      ∃ bytes path, outcome.result = .ok bytes ∧
        (p.dictionaries.install bytes outcome.locale).1 = .ok (.installed path) := by
  rw [completeDownload]
  cases outcome.result with
  | error reason =>
      dsimp only
      split
      · simpa [notify, emit] using fresh
      · simpa using fresh
  | ok bytes =>
      dsimp only
      rcases installed : p.dictionaries.install bytes outcome.locale with
        ⟨failure | path | active, dictionaries⟩
      · simpa [installed, notify, emit] using fresh
      · dsimp only
        rw [refreshSearch_of_closed (by exact closed)]
        simp [installed, notify, emit]
      · simpa [installed] using fresh

end Picker

/-! ## Sessions that only tell -/

namespace Session

variable {s t u : Session}

/-- A session that displayed or searched more: its dictionaries are the same, and so is what it has
to save. -/
structure Tells (s t : Session) : Prop where
  dictionaries : t.picker.dictionaries = s.picker.dictionaries
  dirty : t.picker.recentsDirty = s.picker.recentsDirty

namespace Tells

theorem refl (s : Session) : s.Tells s :=
  ⟨rfl, rfl⟩

theorem trans (first : s.Tells t) (second : t.Tells u) : s.Tells u :=
  ⟨second.dictionaries.trans first.dictionaries, second.dirty.trans first.dirty⟩

end Tells

theorem tells_say (s : Session) (text : String) : s.Tells (s.say text) :=
  ⟨rfl, rfl⟩

theorem tells_sayAll (s : Session) (lines : List String) : s.Tells (Program.sayAll s lines) := by
  induction lines generalizing s with
  | nil => exact .refl s
  | cons line rest ih => exact (s.tells_say line).trans (ih (s.say line))

end Session

namespace Program

variable {i : Invocation} {env : Environment} {input : List UInt8} {disk after : Disk}
  {network : Network} {s : Session} {task : Task}

/-! ## The two stages of a run -/

/-- The session in which a run carries out its task, or why there is none, and the disk by then. -/
def opened (i : Invocation) (env : Environment) (disk : Disk) : Except Failure Session × Disk :=
  let (settings, disk) := loadSettings i env disk
  match catalogFor settings disk with
  | .error failure => (.error failure, disk)
  | .ok catalog =>
      let s := prepare i env settings catalog disk
      let s := withPicker s (s.picker.changeLocale settings.locale)
      (.ok s, s.disk)

/-- What a task comes to in a session that uses its locale. One that waits for lines is left out. -/
def answer (network : Network) (s : Session) : Task → Option ProgramFault × Session
  | .search query => (none, search s query)
  | .describe key => (none, describe s key)
  | .categories => (none, categories s)
  | .recents => (none, recents s)
  | .install file => install s file
  | .download _ => (none, download s network)
  | .session => (none, s)

theorem perform_eq (here : task ≠ .session) (s : Session) (locale : String) (input : List UInt8)
    (network : Network) :
    perform s locale task input network =
      answer network (withPicker s (s.picker.changeLocale locale)) task := by
  cases task with
  | session => exact absurd rfl here
  | _ => rfl

/-- The bytes that a task has for the cache: those of a file, or those that are offered where the
dictionary of the locale in use is to be had. -/
inductive Supplies (network : Network) (s : Session) : Task → List UInt8 → Prop where
  | file {file : Path} {bytes : List UInt8} (read : s.disk.read file = .ok bytes) :
      Supplies network s (.install file) bytes
  | download {address : Option String} {base : String} {bytes : List UInt8}
      (source : s.picker.options.dictionaryAddress = some base)
      (offers : network.Offers s.disk (Locale.address base s.picker.locale) bytes) :
      Supplies network s (.download address) bytes

/-- These bytes, as a task gets them. -/
def supplied? (network : Network) (s : Session) : Task → Option (List UInt8)
  | .install file => (s.disk.read file).toOption
  | .download _ =>
      s.picker.requestDownload.1.bind fun request => (request.fetch s.disk network).result.toOption
  | _ => none

theorem toOption_eq_some_iff {ε α : Type} {result : Except ε α} {value : α} :
    result.toOption = some value ↔ result = .ok value := by
  cases result with
  | error reason => simp [Except.toOption]
  | ok other => simp [Except.toOption]

theorem supplied?_eq_some_iff {bytes : List UInt8} :
    supplied? network s task = some bytes ↔ Supplies network s task bytes := by
  cases task with
  | install file =>
      rw [supplied?, toOption_eq_some_iff]
      constructor
      · exact .file
      · rintro ⟨read⟩
        exact read
  | download address =>
      rw [supplied?, Picker.requestDownload]
      cases source : s.picker.options.dictionaryAddress with
      | none =>
          refine ⟨fun never => absurd never (by simp), ?_⟩
          rintro (_ | ⟨there, _⟩)
          exact absurd (source.symm.trans there) (by simp)
      | some base =>
          rw [Option.bind_some, toOption_eq_some_iff, DownloadRequest.fetch_eq_ok_iff]
          constructor
          · exact .download source
          · rintro (_ | ⟨there, offers⟩)
            obtain rfl := Option.some.inj (source.symm.trans there)
            exact offers
  | _ =>
      refine ⟨fun never => absurd never (by simp [supplied?]), ?_⟩
      rintro ⟨⟩

/-- A download is not to be had, or its outcome is for the locale of the picker. -/
theorem download_cases (network : Network) (s : Session) (address : Option String) :
    (supplied? network s (.download address) = none ∧
        download s network = withPicker s (s.picker.notify .downloadUnavailable)) ∨
      ∃ outcome : DownloadOutcome, outcome.locale = s.picker.locale ∧
        supplied? network s (.download address) = outcome.result.toOption ∧
        download s network =
          withPicker s
            ((s.picker.notify (.downloadStarted s.picker.locale)).completeDownload outcome) := by
  rw [supplied?, download, Picker.requestDownload]
  cases s.picker.options.dictionaryAddress with
  | none => exact Or.inl ⟨rfl, rfl⟩
  | some base =>
      rw [Option.bind_some]
      exact Or.inr ⟨(DownloadRequest.forLocale base s.picker.locale).fetch s.disk network, rfl, rfl, rfl⟩

theorem tells_search (s : Session) (query : String) : s.Tells (search s query) := by
  rw [search]
  split
  · exact s.tells_say _
  · exact .trans (t := withPicker s (s.picker.find query).2) ⟨rfl, rfl⟩ (Session.tells_sayAll _ _)

/-- A task gives its bytes to the dictionaries, for the locale of the picker. That is all it does to
them, and it records nothing. -/
theorem answer_frame (network : Network) (s : Session) (task : Task) :
    (answer network s task).2.picker.recentsDirty = s.picker.recentsDirty ∧
      (answer network s task).2.picker.dictionaries =
        match supplied? network s task with
        | none => s.picker.dictionaries
        | some bytes => (s.picker.dictionaries.install bytes s.picker.locale).2 := by
  have told {t : Session} (tells : s.Tells t) := And.intro tells.dirty tells.dictionaries
  cases task with
  | search query => exact told (tells_search s query)
  | describe key => exact told (s.tells_say _)
  | categories => exact told (s.tells_sayAll _)
  | recents => exact told (s.tells_sayAll _)
  | session => exact told (.refl s)
  | install file =>
      rw [answer, install, supplied?]
      cases s.disk.read file with
      | error fault => exact told (.refl s)
      | ok bytes =>
          dsimp only [Except.toOption]
          rcases s.picker.dictionaries.install bytes s.picker.locale with
            ⟨failure | path | active, dictionaries⟩
          · exact ⟨rfl, rfl⟩
          · exact ⟨rfl, rfl⟩
          · exact ⟨rfl, rfl⟩
  | download address =>
      rw [answer]
      rcases download_cases network s address with ⟨none, same⟩ | ⟨outcome, asked, supplied, same⟩
      · rw [none, same]
        exact ⟨rfl, rfl⟩
      · have delivered :=
          (s.picker.notify (.downloadStarted s.picker.locale)).completeDownload_frame outcome
        rw [asked] at delivered
        rw [supplied, same]
        cases result : outcome.result with
        | error reason =>
            rw [result] at delivered
            exact delivered
        | ok bytes =>
            rw [result] at delivered
            exact delivered

/-! ## Opening -/

/-- A session that uses its locale and did nothing yet. -/
structure Fresh (s : Session) : Prop where
  located : s.picker.Located
  tag : Locale.normalize s.picker.locale = s.picker.locale
  clean : s.picker.recentsDirty = false
  closed : s.picker.search.active = false
  blank : s.picker.display = []

/-- Using the locale reads the cache only. -/
theorem fresh_prepare (i : Invocation) (env : Environment) (settings : Settings) (catalog : Catalog)
    (disk : Disk) (locale : String) :
    let s := prepare i env settings catalog disk
    let opened := withPicker s (s.picker.changeLocale locale)
    Fresh opened ∧ opened.disk = s.disk := by
  intro s opened
  -- No search is open that would be repeated for the new dictionary.
  have same : s.picker.changeLocale locale = s.picker.useLocale locale :=
    Picker.refreshSearch_of_closed rfl
  have store := Lifecycle.ensure_store s.picker.dictionaries (Locale.normalize locale)
  rw [show opened = withPicker s (s.picker.useLocale locale) from congrArg (withPicker s) same]
  refine ⟨?_, congrArg DictionaryCache.disk store⟩
  exact
    { located := s.picker.located_useLocale locale
      tag := Locale.normalize_normalize locale
      clean := rfl
      closed := rfl
      blank := rfl }

theorem loadSettings_disk (i : Invocation) (env : Environment) (disk : Disk) :
    (loadSettings i env disk).2 =
      Settings.provide (Locations.settings env disk).2 (Locations.settings env disk).1 := by
  rw [loadSettings]
  rcases Locations.settings env disk with ⟨path, made⟩
  dsimp only
  rw [Settings.load_eq]

/-- What the settings file holds where it was missing: the template, unless the disk failed. -/
def Provided (disk : Disk) (bytes : List UInt8) : Prop :=
  disk.mishaps = [] → bytes = Text.encode Settings.template.toList

theorem adds_configuration (env : Environment) (disk : Disk) {file : Path}
    {held : List UInt8 → Prop} :
    disk.Adds (Locations.places env) file held (Locations.configuration env disk).2 :=
  (Locations.touches_configuration env disk).adds

theorem adds_loadSettings (i : Invocation) (env : Environment) (disk : Disk) :
    disk.Adds (Locations.places env) (Locations.settings env disk).1 (Provided disk)
      (loadSettings i env disk).2 := by
  have named : Path.EntryName "settings.conf" := ⟨by decide, by decide, by decide, by decide⟩
  have anchored := (Locations.steady_entry env disk named (by decide)).anchored
  rw [loadSettings_disk]
  have provided := Settings.adds_provide (p := (Locations.configuration env disk).1) named anchored
  refine (adds_configuration env disk).trans (provided.weaken ?_ ?_)
  · exact List.cons_subset.2 ⟨Locations.configuration_mem env disk, List.nil_subset _⟩
  · exact fun bytes template works => template (Locations.mishaps_configuration env works)

theorem adds_cacheRoot (i : Invocation) (env : Environment) (disk : Disk) {file : Path}
    {held : List UInt8 → Prop} :
    disk.Adds (Locations.places env) file held (cacheRoot i env disk).2 := by
  rw [cacheRoot]
  split
  · exact .refl disk
  · exact adds_configuration env disk

/-- Opening adds the configuration directory and the settings file, and may fail. Otherwise the run
is what its task comes to, and is over with that. -/
theorem opened_cases (i : Invocation) (env : Environment) (disk : Disk) :
    let directories := Locations.places env
    let settings := (Locations.settings env disk).1
    (∃ failure after, opened i env disk = (.error failure, after) ∧
        disk.Adds directories settings (Provided disk) after ∧
        ∀ input network, run i env input disk network = ⟨"", some (.failure failure), after⟩) ∨
      ∃ s, opened i env disk = (.ok s, s.disk) ∧ Fresh s ∧
        disk.Adds directories settings (Provided disk) s.disk ∧
        ∀ {task} input network, i.task = some task → task ≠ .session →
          (run i env input disk network).fault = (answer network s task).1 ∧
            (run i env input disk network).disk = (answer network s task).2.disk := by
  intro directories settings
  have loaded : disk.Adds directories settings _ _ := adds_loadSettings i env disk
  rw [opened]
  unfold run
  generalize loadSettings i env disk = ready at loaded ⊢
  rcases ready with ⟨chosen, ready⟩
  dsimp only at loaded ⊢
  cases catalogFor chosen ready with
  | error failure => exact Or.inl ⟨failure, ready, rfl, loaded, fun _ _ => rfl⟩
  | ok catalog =>
      rcases fresh_prepare i env chosen catalog ready chosen.locale with ⟨fresh, same⟩
      refine Or.inr ⟨_, rfl, fresh, ?_, fun {task} input network asked here => ?_⟩
      · rw [same]
        have rooted := loaded.trans (adds_cacheRoot i env ready)
        exact rooted.trans (adds_configuration env (cacheRoot i env ready).2)
      · -- Nothing was picked, so the save at the end has nothing to do.
        have clean := (answer_frame network _ task).1.trans fresh.clean
        rw [asked, Option.getD_some]
        dsimp only
        rw [perform_eq here, Session.persist_of_clean clean, ite_self]
        exact ⟨rfl, rfl⟩

/-! ## Success -/

/-- Whether a task put a file into the cache, as far as its user is told: an installation does not
fail, and a download is announced as installed. -/
def successful (network : Network) (s : Session) : Task → Bool
  | .install file => (answer network s (.install file)).1.isNone
  | .download address =>
      (answer network s (.download address)).2.displayed.contains
        (.notice (.dictionaryInstalled s.picker.locale))
  | _ => false

/-- The user is told right. -/
theorem successful_iff (fresh : Fresh s) :
    successful network s task = true ↔
      ∃ bytes path, supplied? network s task = some bytes ∧
        (s.picker.dictionaries.install bytes s.picker.locale).1 = .ok (.installed path) := by
  -- The locale in use is the active one: nothing is discarded, which a user would not be told.
  have active : s.picker.dictionaries.activeLocale = some (Locale.normalize s.picker.locale) := by
    rw [fresh.tag]
    exact fresh.located
  cases task with
  | install file =>
      rw [successful, answer, install, supplied?]
      cases s.disk.read file with
      | error fault => simp [Except.toOption]
      | ok bytes =>
          have kept := Lifecycle.not_discarded active bytes
          rcases answered : s.picker.dictionaries.install bytes s.picker.locale with
            ⟨failure | path | other, dictionaries⟩
          · simp [Except.toOption, answered]
          · simp [Except.toOption, answered]
          · rw [answered] at kept
            exact absurd rfl (kept other)
  | download address =>
      have blank := fresh.blank
      rw [successful, answer]
      rcases download_cases network s address with ⟨none, same⟩ | ⟨outcome, asked, supplied, same⟩
      · rw [none, same]
        simp [Session.displayed, withPicker, Picker.notify, Picker.emit, blank]
      · have announced := Picker.announced_iff
          (p := s.picker.notify (.downloadStarted s.picker.locale)) fresh.closed outcome
          (by simp [Picker.notify, Picker.emit, blank])
        rw [asked, fresh.tag] at announced
        rw [supplied, same, List.contains_iff_mem, Session.displayed, List.mem_reverse]
        refine announced.trans ?_
        cases outcome.result with
        | error reason => simp [Except.toOption]
        | ok bytes => simp [Except.toOption, Picker.notify, Picker.emit]
  | _ => simp [successful, supplied?]

/-! ## What the task adds -/

theorem answer_disk (network : Network) (s : Session) (query : task.isQuery = true) :
    (answer network s task).2.disk = s.disk := by
  have same : (answer network s task).2.picker.dictionaries = s.picker.dictionaries := by
    rw [(answer_frame network s task).2]
    cases task with
    | install | download | session => exact absurd query (by simp [Task.isQuery])
    | _ => rfl
  exact congrArg (fun dictionaries => dictionaries.store.disk) same

/-- The directory of the locale in use. -/
def directoryOf (s : Session) : Path :=
  s.picker.dictionaries.store.directory s.picker.locale

/-- The file of the locale in use. -/
def targetOf (s : Session) : Path :=
  s.picker.dictionaries.store.target s.picker.locale

/-- What that file is called until it is complete. -/
def partOf (s : Session) : Path :=
  s.picker.dictionaries.store.partialTarget s.picker.locale

/-- However a task ends, it touches the directory of the locale and two files in it. -/
theorem touches_answer (fresh : Fresh s) (network : Network) (task : Task) :
    Disk.Touches [directoryOf s] [targetOf s, partOf s] s.disk (answer network s task).2.disk := by
  rw [Session.disk, Session.disk, (answer_frame network s task).2, directoryOf, targetOf, partOf]
  cases supplied? network s task with
  | none => exact .refl _
  | some bytes =>
      dsimp only
      rcases s.picker.dictionaries.install_store bytes s.picker.locale with ⟨same, _⟩ | ⟨same, _⟩
      · rw [same]
        exact .refl _
      · rw [same, fresh.tag]
        exact s.picker.dictionaries.store.touches_install bytes s.picker.locale

/-- The complete file of the locale is there with what a task supplied, and no part of it. -/
def Leaves (network : Network) (s : Session) (task : Task) (after : Disk) : Prop :=
  ∃ bytes, Supplies network s task bytes ∧
    ∃ goal part, after.LeadsTo (targetOf s) goal ∧ after.standing goal = .file bytes ∧
      after.LeadsTo (partOf s) part ∧ after.standing part = .nothing

theorem leaves_answer (fresh : Fresh s) (success : successful network s task = true) :
    Leaves network s task (answer network s task).2.disk := by
  rcases (successful_iff fresh).1 success with ⟨bytes, path, supplied, installed⟩
  refine ⟨bytes, supplied?_eq_some_iff.1 supplied, ?_⟩
  rcases s.picker.dictionaries.install_store bytes s.picker.locale with ⟨_, never⟩ | ⟨same, named⟩
  · exact absurd installed (never path)
  · have written := named path installed
    rw [Session.disk, (answer_frame network s task).2, supplied, targetOf, partOf]
    dsimp only
    rw [same]
    rw [fresh.tag] at written ⊢
    exact (DictionaryCache.installed_places written).2

/-! ## All of it -/

/-- A run that only asks keeps every file, whether it fails or not. It adds directories on the way to
the configuration directory, and the template where the settings file was missing. A run that has a
file for the cache adds, beyond that, directories on the way to that of the locale, and touches two
files in there. If it is successful, which is said just when the dictionary is installed, the complete
one has the bytes, and there is no part of it. The network may answer a download anything. -/
theorem run_effects (asked : i.task = some task) (here : task ≠ .session) (env : Environment)
    (input : List UInt8) (disk : Disk) (network : Network) :
    let settings := (Locations.settings env disk).1
    let directories := Locations.places env
    let after := (run i env input disk network).disk
    (task.isQuery = true →
        disk.KeepsFiles after ∧ disk.Adds directories settings (Provided disk) after) ∧
      (∀ failure, (opened i env disk).1 = .error failure →
        disk.Adds directories settings (Provided disk) after) ∧
      ∀ s, (opened i env disk).1 = .ok s →
        (∀ file, task = .install file →
          ((run i env input disk network).fault = none ↔ successful network s task = true)) ∧
          (successful network s task = true ↔
            ∃ bytes path, Supplies network s task bytes ∧
              (s.picker.dictionaries.install bytes s.picker.locale).1 = .ok (.installed path)) ∧
          (∀ place,
            Disk.Added (directoryOf s :: directories) settings (Provided disk) disk after place ∨
              disk.standing place ≠ .directory ∧
                ∃ file ∈ [targetOf s, partOf s], after.LeadsTo file place) ∧
          (successful network s task = true → Leaves network s task after) := by
  intro settings directories after
  rcases opened_cases i env disk with ⟨failure, by_then, stopped, adds, ends⟩ |
    ⟨s, started, fresh, adds, ends⟩
  · -- The catalog cannot be read, and the run ends there.
    have same : after = by_then := congrArg Outcome.disk (ends input network)
    clear_value after
    subst same
    refine ⟨fun _ => ⟨adds.keepsFiles, adds⟩, fun _ _ => adds, fun s started => ?_⟩
    rw [stopped] at started
    exact absurd started (by simp)
  · rcases ends input network asked here with ⟨fault, same⟩
    have same : after = (answer network s task).2.disk := same
    clear_value after
    subst same
    refine ⟨fun query => ?_, fun failure stopped => ?_, fun t also => ?_⟩
    · rw [answer_disk network s query]
      exact ⟨adds.keepsFiles, adds⟩
    · rw [started] at stopped
      exact absurd stopped (by simp)
    · rw [started] at also
      obtain rfl : s = t := Except.ok.inj also
      refine ⟨?_, ?_, adds.touched (touches_answer fresh network task), leaves_answer fresh⟩
      · rintro file rfl
        rw [fault, successful, Option.isNone_iff_eq_none]
      · rw [successful_iff fresh]
        simp only [supplied?_eq_some_iff]

/-- The empty dictionary, installed from a file and downloaded from the network. -/
theorem run_effects_install :
    let disk := (({} : Disk).write ⟨"f.dict"⟩ [123, 125]).2
    let disk := (Disk.makeDirectories disk ⟨".config/emoji-palette"⟩).2
    let disk := (Disk.write disk ⟨".config/emoji-palette/settings.conf"⟩ []).2
    let env : Environment := ⟨none, none⟩
    let network : Network := ⟨some fun address =>
      if address == "https://example.org/emoji_en.dict" then .ok ⟨.ok (), .ok [123, 125]⟩
      else .error "no such host"⟩
    let install : Invocation := { options := {}, task := some (.install ⟨"f.dict"⟩) }
    let fetched : Task := .download (some "https://example.org/")
    let download : Invocation := { options := {}, task := some fetched }
    ((run install env [] disk network).fault = none ∧
        ∃ s, (opened install env disk).1 = .ok s ∧
          Leaves network s (.install ⟨"f.dict"⟩) (run install env [] disk network).disk) ∧
      ∃ s, (opened download env disk).1 = .ok s ∧ successful network s fetched = true ∧
        Leaves network s fetched (run download env [] disk network).disk := by
  intro base made disk env network install fetched download
  constructor
  · have fault : (run install env [] disk network).fault = none := by decide +kernel
    refine ⟨fault, ?_⟩
    have effects := run_effects (i := install) rfl (by simp) env [] disk network
    clear_value disk
    rcases opened_cases install env disk with ⟨failure, _, _, _, ends⟩ | ⟨s, started, _⟩
    · rw [ends] at fault
      exact absurd fault (by simp)
    · have started := congrArg Prod.fst started
      rcases effects.2.2 s started with ⟨told, _, _, leaves⟩
      exact ⟨s, started, leaves ((told _ rfl).1 fault)⟩
  · have told : ((opened download env disk).1.toOption.any (successful network · fetched)) = true := by
      decide +kernel
    have asked : download.task = some fetched := rfl
    have effects := run_effects asked (by simp [fetched]) env [] disk network
    clear_value disk
    cases started : (opened download env disk).1 with
    | error failure =>
        rw [started] at told
        exact absurd told (by simp [Except.toOption])
    | ok s =>
        rw [started] at told
        have success : successful network s fetched = true := told
        exact ⟨s, rfl, success, (effects.2.2 s started).2.2.2 success⟩

/-- A locale whose directory is reached by going up. The directory below which it goes up is made as
well, and it is neither that of the locale nor above it. -/
theorem run_makes_another :
    let disk := (({} : Disk).write ⟨"f.dict"⟩ [123, 125]).2
    let disk := (Disk.makeDirectories disk ⟨"home/.config/emoji-palette"⟩).2
    let disk := (Disk.write disk ⟨"home/.config/emoji-palette/settings.conf"⟩ []).2
    let i : Invocation :=
      { options := { locale := some "x_/../b" }, task := some (.install ⟨"f.dict"⟩) }
    let run := run i ⟨some "home", none⟩ [] disk
    let root : Place := ["dicts", "emoji-palette", ".config", "home"]
    run.fault = none ∧
      run.disk.LeadsTo ⟨"home/.config/emoji-palette/dicts/x_/../b"⟩ ("b" :: root) ∧
      disk.standing ("x_" :: root) = .nothing ∧ run.disk.standing ("x_" :: root) = .directory := by
  unfold Disk.LeadsTo
  decide +kernel

end Program
end EmojiPicker

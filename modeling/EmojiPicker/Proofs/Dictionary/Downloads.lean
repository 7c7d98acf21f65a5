import EmojiPicker.Dictionary.Download

/-!
# What downloads get

The bytes of a download are those of a file, or those of a good answer from the network.

* `Network.Answers`, `Network.get_eq_ok_iff` — the bytes that the network has at an address;
* `Network.Offers`, `DownloadRequest.fetch_eq_ok_iff` — the bytes that a request gets.

Everything else is a failure, whatever the network makes of it.
-/

namespace EmojiPicker

namespace Network

variable {network : Network} {address : String} {bytes : List UInt8}

/-- A request to the address is answered, with a status of success and these bytes. There are some. -/
structure Answers (network : Network) (address : String) (bytes : List UInt8) : Prop where
  answered : ∃ send response, network.client? = some send ∧ send address = .ok response ∧
    response.status = .ok () ∧ response.body = .ok bytes
  nonempty : bytes ≠ []

/-- The bytes at an address are those of the file that it names, or else those that the network answers. -/
inductive Offers (network : Network) (disk : Disk) (address : String) (bytes : List UInt8) : Prop where
  | file {path : Path} (named : address = "file://" ++ path.text) (read : disk.read path = .ok bytes)
  | answer (remote : ¬ "file://".toList <+: address.toList) (answers : network.Answers address bytes)

/-- A step whose error is worded anew succeeds as it did. -/
theorem mapError_bind_eq_ok_iff {α β : Type} {result : Except String α} {word : String → String}
    {next : α → Except String β} {value : β} :
    (result.mapError word >>= next) = .ok value ↔ ∃ mid, result = .ok mid ∧ next mid = .ok value := by
  cases result with
  | error reason =>
      constructor
      · intro passed
        change Except.error (word reason) = .ok value at passed
        exact absurd passed (by simp)
      · rintro ⟨mid, same, _⟩
        exact absurd same (by simp)
  | ok mid =>
      constructor
      · intro passed
        exact ⟨mid, rfl, passed⟩
      · rintro ⟨other, same, passed⟩
        obtain rfl := Except.ok.inj same
        exact passed

theorem get_eq_ok_iff : network.get address = .ok bytes ↔ network.Answers address bytes := by
  rw [get]
  cases client : network.client? with
  | none =>
      refine ⟨fun got => absurd got (by simp), ?_⟩
      rintro ⟨⟨send, _, there, _⟩, _⟩
      exact absurd (client.symm.trans there) (by simp)
  | some send =>
      dsimp only
      simp only [mapError_bind_eq_ok_iff]
      constructor
      · rintro ⟨response, sent, _, status, body, read, kept⟩
        split at kept
        · exact absurd kept (by simp)
        · next some =>
            obtain rfl := Except.ok.inj kept
            exact ⟨⟨send, response, client, sent, status, read⟩, by simpa using some⟩
      · rintro ⟨⟨_, response, there, sent, status, read⟩, nonempty⟩
        obtain rfl := Option.some.inj (client.symm.trans there)
        exact ⟨response, sent, (), status, bytes, read, if_neg (by simpa using nonempty)⟩

end Network

namespace DownloadRequest

variable {request : DownloadRequest} {disk : Disk} {network : Network} {bytes : List UInt8}

theorem path?_eq_some_iff {path : Path} :
    request.path? = some path ↔ request.address = "file://" ++ path.text := by
  rw [path?]
  constructor
  · intro named
    split at named
    · next begins =>
        rcases List.isPrefixOf_iff_prefix.1 begins with ⟨rest, whole⟩
        obtain rfl := Option.some.inj named
        rw [← String.toList_inj, String.toList_append, ← whole, List.drop_left]
        exact congrArg _ String.toList_ofList.symm
    · exact absurd named (by simp)
  · intro same
    have whole : request.address.toList = "file://".toList ++ path.text.toList := by
      rw [same, String.toList_append]
    rw [whole, if_pos (List.isPrefixOf_iff_prefix.2 (List.prefix_append _ _)), List.drop_left,
      String.ofList_toList]

theorem path?_eq_none_iff :
    request.path? = none ↔ ¬ "file://".toList <+: request.address.toList := by
  rw [path?, ← List.isPrefixOf_iff_prefix, ite_eq_right_iff]
  constructor
  · intro never begins
    exact absurd (never begins) (Option.some_ne_none _)
  · intro remote begins
    exact absurd begins remote

theorem fetch_eq_ok_iff :
    (request.fetch disk network).result = .ok bytes ↔ network.Offers disk request.address bytes := by
  rw [fetch]
  cases named : request.path? with
  | none =>
      have remote := path?_eq_none_iff.1 named
      dsimp only
      rw [Network.get_eq_ok_iff]
      constructor
      · exact .answer remote
      · rintro (⟨here, _⟩ | ⟨_, answers⟩)
        · rw [path?_eq_some_iff.2 here] at named
          exact absurd named (by simp)
        · exact answers
  | some path =>
      have address := path?_eq_some_iff.1 named
      dsimp only
      constructor
      · intro got
        cases read : disk.read path with
        | error fault =>
            rw [read] at got
            exact absurd got (by simp)
        | ok content =>
            rw [read] at got
            obtain rfl := Except.ok.inj got
            exact .file address read
      · rintro (⟨here, read⟩ | ⟨remote, _⟩)
        · obtain rfl := Option.some.inj (named.symm.trans (path?_eq_some_iff.2 here))
          rw [read]
        · rw [path?_eq_none_iff.2 remote] at named
          exact absurd named (by simp)

end DownloadRequest
end EmojiPicker

import EmojiPicker.Locale
import EmojiPicker.Disk.Tree

/-!
# Downloads

A download is requested, runs on its own, and delivers one outcome.

* `DownloadRequest`, `DownloadOutcome` — what is asked for and what comes back;
* `HttpResponse`, `Network` — what is outside: a client and what it comes to for each address;
* `Network.get` — the bytes at an address of the network;
* `DownloadRequest.forLocale` — the request for the dictionary of a locale;
* `DownloadRequest.fetch` — the outcome of a request.

The network may answer anything. Nothing is assumed of it here.
-/

namespace EmojiPicker

structure DownloadRequest where
  locale : String
  address : String
  deriving DecidableEq, Repr

/-- What a download delivers: bytes, or the reason why there are none. -/
structure DownloadOutcome where
  locale : String
  result : Except String (List UInt8)
  deriving Repr

/-! ## The network -/

/-- The answer to a request. The client words its own errors. -/
structure HttpResponse where
  /-- Whether the status is one of success, or how the client words the error that it is. -/
  status : Except String Unit
  /-- The whole body, or why it cannot be read. -/
  body : Except String (List UInt8)

/-- The network, by the client for it. -/
structure Network where
  /-- What sending a request to an address comes to. There may be no client. -/
  client? : Option (String → Except String HttpResponse)

namespace Network

/-- A machine without a client. -/
def offline : Network :=
  ⟨none⟩

/-- The bytes at an address. An empty body counts as a failure. -/
def get (network : Network) (address : String) : Except String (List UInt8) :=
  match network.client? with
  | none => .error "HTTP client unavailable"
  | some send => do
      let response ← (send address).mapError ("request failed: " ++ ·)
      response.status.mapError ("server error: " ++ ·)
      let bytes ← response.body.mapError ("reading body failed: " ++ ·)
      if bytes.isEmpty then .error "empty response body" else .ok bytes

end Network

/-! ## Requests -/

namespace DownloadRequest

def forLocale (base locale : String) : DownloadRequest :=
  ⟨locale, Locale.address base locale⟩

/-- The file of an address that needs no network. -/
def path? (request : DownloadRequest) : Option Path :=
  let scheme := "file://".toList
  if scheme.isPrefixOf request.address.toList then
    some ⟨String.ofList (request.address.toList.drop scheme.length)⟩
  else
    none

/-- The outcome of a download from the disk or the network. -/
def fetch (request : DownloadRequest) (disk : Disk) (network : Network := .offline) :
    DownloadOutcome where
  locale := request.locale
  result :=
    match request.path? with
    | none => network.get request.address
    | some path =>
        match disk.read path with
        | .ok bytes => .ok bytes
        | .error fault => .error s!"read {path.text}: {fault.message}"

end DownloadRequest
end EmojiPicker

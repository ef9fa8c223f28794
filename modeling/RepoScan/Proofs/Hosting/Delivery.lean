import RepoScan.Proofs.Hosting.Source
import RepoScan.Proofs.Text.Base64

/-!
# The two ways to a body

The host sends the body of a file along with its description, or else leaves it out, and then the
source asks for it and takes it out of its text encoding.  Of an empty file there is nothing to ask
for.  In each way the source comes to the same bytes.

* `Hosted.events_repository_of_ok` : what is asked for the handle of a repository;
* `Hosted.run_fetch_of_file` : the text of a file whose description is known;
* `Hosted.bodyFrom_of_delivers` : **the bytes, in both ways**;
* `Hosted.fetch_of_delivers` : the text is read off these bytes.
-/

namespace RepoScan

variable {ρ : Type}

/-- How the body of a file gets from the service to the source. -/
inductive Service.Delivers (s : Service ρ) (remote : ρ) (f : RemoteFile) (body : Bytes) : Prop
  /-- It comes with the description, with no text only if it is empty. -/
  | along (content : f.content = [] → body = []) (decoded : f.decoded = some body)
  /-- It comes on request, unless it is empty. -/
  | apart (content : f.content = []) (decoded : f.decoded = none)
      (reply : body ≠ [] → ∃ encoded, s.blob remote f.id = .ok encoded ∧
        Base64.Encodes encoded body)

/-- The requests for the body of a file that the service delivers. -/
def RemoteFile.blobRequests (f : RemoteFile) (body : Bytes) : List Event :=
  if f.decoded.isSome || body.isEmpty then [] else [.request (.blob f.id)]

namespace Hosted

variable {s : Service ρ} {r : Repository} {path : Text} {known : Handles ρ} {remote : ρ}
  {f : RemoteFile} {body : Bytes}

/-- For a handle the repository is looked up, unless it is known. -/
theorem events_repository_of_ok (h : ((repository s r).run known).1.result = .ok remote) :
    ((repository s r).run known).1.events =
      if (known.lookup r.fullName).isSome then [] else [.request (.lookup r.fullName)] := by
  cases hk : known.lookup r.fullName with
  | some remote =>
    rw [run_repository_of_known s hk]
    rfl
  | none =>
    have run := run_repository_of_new s hk
    cases hs : s.lookup r.fullName with
    | ok remote =>
      rw [run, hs]
      rfl
    | error e =>
      rw [run, hs] at h
      cases h

theorem run_fetch_of_file (handle : ((repository s r).run known).1.result = .ok remote)
    (described : s.contents remote path = .ok (.file f)) :
    ((fetch s r path).run known).1 =
      ⟨((repository s r).run known).1.events ++
          .request (.contents path) :: (bodyFrom s remote (fileSubject r path) f).events,
        (bodyFrom s remote (fileSubject r path) f).result.map
          fun bytes => Utf8.decode (bytes.getD [])⟩ := by
  rw [fetch_eq, Session.run_bind_of_ok _ handle, fetchFrom_of_file s described]
  rfl

/-- **The bytes that the source comes to**, and what it asks for. -/
theorem bodyFrom_of_delivers (subject : Text) (h : s.Delivers remote f body)
    (empty : f.size = 0 ↔ body = []) :
    (bodyFrom s remote subject f).events = f.blobRequests body ∧
      ∃ bytes, (bodyFrom s remote subject f).result = .ok bytes ∧ bytes.getD [] = body := by
  cases h with
  | along content decoded =>
    have silent : f.blobRequests body = [] := by
      rw [RemoteFile.blobRequests, decoded]
      rfl
    by_cases hc : f.content = []
    · obtain rfl := content hc
      have absent : sent? f = none := by rw [sent?, hc, List.isEmpty_nil, if_pos rfl]
      rw [bodyFrom_of_empty s absent (empty.mpr rfl), silent]
      exact ⟨rfl, _, rfl, rfl⟩
    · have present : sent? f = some body := by
        rw [sent?, List.isEmpty_eq_false_iff.mpr hc, if_neg Bool.false_ne_true, decoded]
      rw [bodyFrom_of_sent s present, silent]
      exact ⟨rfl, _, rfl, rfl⟩
  | apart content decoded reply =>
    have absent : sent? f = none := by rw [sent?, content, List.isEmpty_nil, if_pos rfl]
    by_cases hb : body = []
    · subst hb
      have silent : f.blobRequests [] = [] := by
        rw [RemoteFile.blobRequests, List.isEmpty_nil, Bool.or_true, if_pos rfl]
      rw [bodyFrom_of_empty s absent (empty.mpr rfl), silent]
      exact ⟨rfl, _, rfl, rfl⟩
    · obtain ⟨encoded, sent, he⟩ := reply hb
      have asked : f.blobRequests body = [.request (.blob f.id)] := by
        rw [RemoteFile.blobRequests, decoded, List.isEmpty_eq_false_iff.mpr hb]
        rfl
      have answered : (answer (.blob f.id) subject (.ok encoded)).result = .ok encoded := rfl
      rw [bodyFrom_of_apart s absent (mt empty.mp hb), sent, Outcome.bind_of_ok _ answered,
        Base64.decode?_of_encodes he, asked]
      exact ⟨rfl, _, rfl, rfl⟩

/-- **The text of a file is the one that is read off its body**, however the body is delivered.  The
size that the host reports is only seen to be positive or not.

The body is asked for where it does not come with the description and is not empty. -/
theorem fetch_of_delivers {size : Nat}
    (handle : ((repository s r).run known).1.result = .ok remote)
    (described : s.contents remote path = .ok (.file f)) (sized : f.size = size)
    (filled : 0 < size ↔ body ≠ []) (delivers : s.Delivers remote f body) :
    ((fetch s r path).run known).1.result = .ok (Utf8.decode body) ∧
      (∀ t, Utf8.Reads body t ↔ t = Utf8.decode body) ∧
      ((fetch s r path).run known).1.events =
        (if (known.lookup r.fullName).isSome then [] else [.request (.lookup r.fullName)]) ++
          .request (.contents path) :: f.blobRequests body := by
  have empty : f.size = 0 ↔ body = [] := by
    refine Decidable.not_iff_not.mp ?_
    rw [← ne_eq body, ← filled, sized]
    omega
  obtain ⟨events, bytes, result, hbytes⟩ := bodyFrom_of_delivers (fileSubject r path) delivers empty
  rw [run_fetch_of_file handle described, events, result, events_repository_of_ok handle]
  exact ⟨congrArg (Except.ok <| Utf8.decode ·) hbytes, fun t => Utf8.reads_iff, rfl⟩

/-- A character breaks off, and a stray byte follows. -/
def brokenBody : Bytes := [0x61, 0xE2, 0x82, 0xFF, 0x62]

/-- A file with that body, sent along or not. -/
def brokenFile (path : Text) (along : Bool) : RemoteFile where
  entry := ⟨path, path, "file"⟩
  content := if along then "YeKC\n/2I=\n" else []
  decoded := if along then some brokenBody else none
  size := 5
  id := "2c9f"

/-- Only one of the files is sent along. -/
def brokenService : Service Nat where
  lookup _ := .ok 1
  contents _ path := .ok (.file (brokenFile path (path == "small.txt")))
  blob _ _ := .ok "YeKC\n/2I=\n"

theorem fetch_of_delivers_broken :
    brokenService.Delivers 1 (brokenFile "small.txt" true) brokenBody ∧
    brokenService.Delivers 1 (brokenFile "large.txt" false) brokenBody ∧
    ((fetch brokenService ⟨"acme", "shop"⟩ "small.txt").run []).1.result = .ok "a\uFFFD\uFFFDb" ∧
    ((fetch brokenService ⟨"acme", "shop"⟩ "small.txt").run []).1.events =
      [.request (.lookup "acme/shop"), .request (.contents "small.txt")] ∧
    ((fetch brokenService ⟨"acme", "shop"⟩ "large.txt").run []).1.result = .ok "a\uFFFD\uFFFDb" ∧
    ((fetch brokenService ⟨"acme", "shop"⟩ "large.txt").run []).1.events =
      [.request (.lookup "acme/shop"), .request (.contents "large.txt"),
        .request (.blob "2c9f")] := by
  have encodes : Base64.Encodes "YeKC\n/2I=\n" brokenBody := by
    unfold Base64.Encodes
    decide
  have text : Utf8.decode brokenBody = "a\uFFFD\uFFFDb" := by decide
  have filled : 0 < 5 ↔ brokenBody ≠ [] := by decide
  have handle : ((repository brokenService ⟨"acme", "shop"⟩).run []).1.result = .ok 1 := rfl
  have described (path : Text) :
      brokenService.contents 1 path = .ok (.file (brokenFile path (path == "small.txt"))) := rfl
  have along : brokenService.Delivers 1 (brokenFile "small.txt" true) brokenBody :=
    .along nofun rfl
  have apart : brokenService.Delivers 1 (brokenFile "large.txt" false) brokenBody :=
    .apart rfl rfl fun _ => ⟨_, rfl, encodes⟩
  obtain ⟨small, -, smallEvents⟩ :=
    fetch_of_delivers handle (described "small.txt") rfl filled along
  obtain ⟨large, -, largeEvents⟩ :=
    fetch_of_delivers handle (described "large.txt") rfl filled apart
  rw [text] at small large
  exact ⟨along, apart, small, smallEvents, large, largeEvents⟩

end Hosted

end RepoScan

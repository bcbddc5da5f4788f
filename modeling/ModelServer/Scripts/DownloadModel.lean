import ModelServer.Library.FileSystem
import ModelServer.Library.Machine

/-!
# `download_model.py`

`download_file` is a machine whose steps are the places where it may raise or the
process may stop: a chunk is hashed, a block is written, a file is renamed or
removed.  Every state it can reach is therefore what a crash may leave behind.  What
`urlretrieve` writes is up to the network, and SHA-256 is any function.

`main` runs `download_file` for the items of `FILES`, and may at any moment be
started again from the top.
-/

namespace ModelServer.DownloadModel

open FileSystem Transition

abbrev Bytes := List UInt8

/-! ## Paths -/

/-- A `pathlib.Path` that has a name. -/
structure FilePath where
  parents : List String
  name : List Char
  named : name ≠ []
  deriving DecidableEq

namespace FilePath

/-- `name.rfind('.')`. -/
def lastDot (name : List Char) : Option ℕ :=
  (List.range name.length).reverse.find? fun i => name[i]? = some '.'

def suffix (path : FilePath) : List Char :=
  match lastDot path.name with
  | some i => if 0 < i ∧ i < path.name.length - 1 then path.name.drop i else []
  | none => []

/-- The name without its suffix, followed by a new one that is not empty. -/
def withSuffix (path : FilePath) (suffix : List Char) (h : suffix ≠ []) : FilePath where
  parents := path.parents
  name := path.name.take (path.name.length - path.suffix.length) ++ suffix
  named := by simp [h]

/-- `dest_path.with_suffix(dest_path.suffix + ".tmp")`. -/
def temp (path : FilePath) : FilePath :=
  path.withSuffix (path.suffix ++ ".tmp".toList) (by simp)

theorem suffix_eq_drop (path : FilePath) : ∃ i, path.suffix = path.name.drop i := by
  unfold suffix
  split
  · split
    · exact ⟨_, rfl⟩
    · exact ⟨path.name.length, List.drop_length.symm⟩
  · exact ⟨path.name.length, List.drop_length.symm⟩

/-- However many dots there are, `.tmp` is added at the end. -/
theorem temp_name (path : FilePath) : path.temp.name = path.name ++ ".tmp".toList := by
  obtain ⟨i, hsuffix⟩ := path.suffix_eq_drop
  have hlength : path.name.length - (path.name.drop i).length = min i path.name.length := by
    rw [List.length_drop]
    omega
  have htake : path.name.take (min i path.name.length) = path.name.take i := by
    rw [← List.take_take, List.take_length]
  simp only [temp, withSuffix, hsuffix]
  rw [hlength, htake, ← List.append_assoc, List.take_append_drop]

theorem temp_ne (path : FilePath) : path.temp ≠ path := by
  intro h
  have hlength := congrArg (fun path => path.name.length) h
  simp [temp_name] at hlength

end FilePath

/-! ## `download_file` -/

/-- An item of `FILES`. -/
structure Artifact where
  path : FilePath
  url : String
  sha256 : String
  deriving DecidableEq

inductive Ending
  | returned
  /-- With any exception. -/
  | raised
  deriving DecidableEq, Repr

/-- Where `download_file` stands. -/
inductive Point
  /-- About to call `verify_sha256(dest_path, ..)`. -/
  | verifyDest
  /-- In its loop: the bytes hashed so far, and those still to be read. -/
  | hashDest (hashed rest : Bytes)
  /-- About to create the directory. -/
  | makeParent
  /-- About to call `urlretrieve`. -/
  | retrieve
  /-- In `urlretrieve`, which has opened the temporary file and written these bytes. -/
  | writing (written : Bytes)
  /-- About to call `verify_sha256(temp_path, ..)`. -/
  | verifyTemp
  | hashTemp (hashed rest : Bytes)
  /-- About to remove the temporary file, and then to raise `ValueError`. -/
  | removeTemp
  /-- About to call `os.replace`. -/
  | replaceDest
  /-- About to print that all went well. -/
  | report
  | finished (how : Ending)
  deriving DecidableEq, Repr

inductive Event
  /-- The next step. -/
  | run
  /-- `urlretrieve` writes a block. -/
  | block (bytes : Bytes)
  /-- `urlretrieve` returns. -/
  | retrieved
  /-- Any exception, anywhere. -/
  | raise

structure Download where
  files : Files FilePath Bytes
  point : Point

/-- `f.read(8192)`. -/
def chunk (rest : Bytes) : Bytes := rest.take 8192

def step (digest : Bytes → String) (artifact : Artifact) (s : Download) : Event → Option Download
  | .raise =>
      match s.point with
      | .finished _ => none
      | _ => some { s with point := .finished .raised }
  | .block bytes =>
      match s.point with
      | .writing written =>
          some ⟨write s.files artifact.path.temp (written ++ bytes), .writing (written ++ bytes)⟩
      | _ => none
  | .retrieved =>
      match s.point with
      | .writing _ => some { s with point := .verifyTemp }
      | _ => none
  | .run =>
      match s.point with
      | .verifyDest =>
          match s.files artifact.path with
          | none => some { s with point := .makeParent }
          | some content => some { s with point := .hashDest [] content }
      | .hashDest hashed rest =>
          if chunk rest ≠ [] then
            some { s with point := .hashDest (hashed ++ chunk rest) (rest.drop 8192) }
          else if digest hashed = artifact.sha256 then some { s with point := .report }
          else some { s with point := .makeParent }
      | .makeParent => some { s with point := .retrieve }
      -- the temporary file is opened, and what it held is gone
      | .retrieve => some ⟨write s.files artifact.path.temp [], .writing []⟩
      | .verifyTemp =>
          match s.files artifact.path.temp with
          | none => some { s with point := .removeTemp }
          | some content => some { s with point := .hashTemp [] content }
      | .hashTemp hashed rest =>
          if chunk rest ≠ [] then
            some { s with point := .hashTemp (hashed ++ chunk rest) (rest.drop 8192) }
          else if digest hashed = artifact.sha256 then some { s with point := .replaceDest }
          else some { s with point := .removeTemp }
      | .removeTemp => some ⟨unlink s.files artifact.path.temp, .finished .raised⟩
      | .replaceDest =>
          match replace s.files artifact.path.temp artifact.path with
          | none => some { s with point := .finished .raised }
          | some files => some ⟨files, .report⟩
      | .report => some { s with point := .finished .returned }
      | .writing _ | .finished _ => none

/-- `download_file` of `artifact`, from any files. -/
def machine (digest : Bytes → String) (artifact : Artifact) : Machine Download Event where
  Initial s := s.point = .verifyDest
  step := step digest artifact

/-- The branches of `step`. -/
inductive Step (digest : Bytes → String) (artifact : Artifact) (s : Download) :
    Event → Download → Prop
  | raises (hpoint : ∀ how, s.point ≠ .finished how) :
      Step digest artifact s .raise { s with point := .finished .raised }
  -- `verify_sha256(dest_path, ..)`
  | missingDest (hpoint : s.point = .verifyDest) (hmissing : s.files artifact.path = none) :
      Step digest artifact s .run { s with point := .makeParent }
  | openDest {content : Bytes} (hpoint : s.point = .verifyDest)
      (hcontent : s.files artifact.path = some content) :
      Step digest artifact s .run { s with point := .hashDest [] content }
  | readDest {hashed rest : Bytes} (hpoint : s.point = .hashDest hashed rest) :
      Step digest artifact s .run
        { s with point := .hashDest (hashed ++ chunk rest) (rest.drop 8192) }
  | matchDest {hashed : Bytes} (hpoint : s.point = .hashDest hashed [])
      (hdigest : digest hashed = artifact.sha256) :
      Step digest artifact s .run { s with point := .report }
  | mismatchDest {hashed : Bytes} (hpoint : s.point = .hashDest hashed [])
      (hdigest : digest hashed ≠ artifact.sha256) :
      Step digest artifact s .run { s with point := .makeParent }
  -- the download
  | makeParent (hpoint : s.point = .makeParent) :
      Step digest artifact s .run { s with point := .retrieve }
  | openTemp (hpoint : s.point = .retrieve) :
      Step digest artifact s .run ⟨write s.files artifact.path.temp [], .writing []⟩
  | block {written bytes : Bytes} (hpoint : s.point = .writing written) :
      Step digest artifact s (.block bytes)
        ⟨write s.files artifact.path.temp (written ++ bytes), .writing (written ++ bytes)⟩
  | retrieved {written : Bytes} (hpoint : s.point = .writing written) :
      Step digest artifact s .retrieved { s with point := .verifyTemp }
  -- `verify_sha256(temp_path, ..)`
  | missingTemp (hpoint : s.point = .verifyTemp) (hmissing : s.files artifact.path.temp = none) :
      Step digest artifact s .run { s with point := .removeTemp }
  | reopenTemp {content : Bytes} (hpoint : s.point = .verifyTemp)
      (hcontent : s.files artifact.path.temp = some content) :
      Step digest artifact s .run { s with point := .hashTemp [] content }
  | readTemp {hashed rest : Bytes} (hpoint : s.point = .hashTemp hashed rest) :
      Step digest artifact s .run
        { s with point := .hashTemp (hashed ++ chunk rest) (rest.drop 8192) }
  | matchTemp {hashed : Bytes} (hpoint : s.point = .hashTemp hashed [])
      (hdigest : digest hashed = artifact.sha256) :
      Step digest artifact s .run { s with point := .replaceDest }
  | mismatchTemp {hashed : Bytes} (hpoint : s.point = .hashTemp hashed [])
      (hdigest : digest hashed ≠ artifact.sha256) :
      Step digest artifact s .run { s with point := .removeTemp }
  -- the end
  | removeTemp (hpoint : s.point = .removeTemp) :
      Step digest artifact s .run ⟨unlink s.files artifact.path.temp, .finished .raised⟩
  | replaceMissing (hpoint : s.point = .replaceDest)
      (hmissing : s.files artifact.path.temp = none) :
      Step digest artifact s .run { s with point := .finished .raised }
  | replaceDest {content : Bytes} (hpoint : s.point = .replaceDest)
      (hcontent : s.files artifact.path.temp = some content) :
      Step digest artifact s .run
        ⟨write (unlink s.files artifact.path.temp) artifact.path content, .report⟩
  | report (hpoint : s.point = .report) :
      Step digest artifact s .run { s with point := .finished .returned }

variable {digest : Bytes → String} {artifact : Artifact}

theorem chunk_eq_nil {rest : Bytes} (h : chunk rest = []) : rest = [] := by
  simpa [chunk] using h

private theorem step_of_run {s next : Download} (hstep : step digest artifact s .run = some next) :
    Step digest artifact s .run next := by
  cases hpoint : s.point with
  | verifyDest =>
      simp only [step, hpoint] at hstep
      split at hstep <;> obtain rfl := Option.some.inj hstep
      · exact .missingDest hpoint ‹_›
      · exact .openDest hpoint ‹_›
  | hashDest hashed rest =>
      simp only [step, hpoint] at hstep
      split at hstep
      · obtain rfl := Option.some.inj hstep
        exact .readDest hpoint
      · obtain rfl := chunk_eq_nil (not_not.mp ‹_›)
        split at hstep <;> obtain rfl := Option.some.inj hstep
        · exact .matchDest hpoint ‹_›
        · exact .mismatchDest hpoint ‹_›
  | makeParent =>
      simp only [step, hpoint] at hstep
      obtain rfl := Option.some.inj hstep
      exact .makeParent hpoint
  | retrieve =>
      simp only [step, hpoint] at hstep
      obtain rfl := Option.some.inj hstep
      exact .openTemp hpoint
  | verifyTemp =>
      simp only [step, hpoint] at hstep
      split at hstep <;> obtain rfl := Option.some.inj hstep
      · exact .missingTemp hpoint ‹_›
      · exact .reopenTemp hpoint ‹_›
  | hashTemp hashed rest =>
      simp only [step, hpoint] at hstep
      split at hstep
      · obtain rfl := Option.some.inj hstep
        exact .readTemp hpoint
      · obtain rfl := chunk_eq_nil (not_not.mp ‹_›)
        split at hstep <;> obtain rfl := Option.some.inj hstep
        · exact .matchTemp hpoint ‹_›
        · exact .mismatchTemp hpoint ‹_›
  | removeTemp =>
      simp only [step, hpoint] at hstep
      obtain rfl := Option.some.inj hstep
      exact .removeTemp hpoint
  | replaceDest =>
      simp only [step, hpoint] at hstep
      cases hcontent : s.files artifact.path.temp with
      | none =>
          simp only [replace, hcontent, Option.map_none] at hstep
          obtain rfl := Option.some.inj hstep
          exact .replaceMissing hpoint hcontent
      | some content =>
          simp only [replace_of_some _ hcontent] at hstep
          obtain rfl := Option.some.inj hstep
          exact .replaceDest hpoint hcontent
  | report =>
      simp only [step, hpoint] at hstep
      obtain rfl := Option.some.inj hstep
      exact .report hpoint
  | writing | finished =>
      simp only [step, hpoint] at hstep
      cases hstep

/-- The inversion lemma of `step`. -/
theorem step_cases {s next : Download} {event : Event}
    (hstep : step digest artifact s event = some next) : Step digest artifact s event next := by
  cases event with
  | run => exact step_of_run hstep
  | block bytes =>
      simp only [step] at hstep
      split at hstep
      · obtain rfl := Option.some.inj hstep
        exact .block ‹_›
      · cases hstep
  | retrieved =>
      simp only [step] at hstep
      split at hstep
      · obtain rfl := Option.some.inj hstep
        exact .retrieved ‹_›
      · cases hstep
  | raise =>
      simp only [step] at hstep
      split at hstep
      · cases hstep
      · obtain rfl := Option.some.inj hstep
        exact .raises ‹_›

/-! ## One download is crash-safe -/

/-- The file is there, and its digest is the expected one. -/
def Verified (digest : Bytes → String) (artifact : Artifact) (file : Option Bytes) : Prop :=
  ∃ content, file = some content ∧ digest content = artifact.sha256

/-- What has been found out about the files when `download_file` stands at a point. -/
def Knows (digest : Bytes → String) (artifact : Artifact) (files : Files FilePath Bytes) :
    Point → Prop
  | .hashDest hashed rest => files artifact.path = some (hashed ++ rest)
  | .hashTemp hashed rest => files artifact.path.temp = some (hashed ++ rest)
  | .replaceDest => Verified digest artifact (files artifact.path.temp)
  | .report | .finished .returned => Verified digest artifact (files artifact.path)
  | _ => True

/-- The files that `download_file` may change. -/
def touched (artifact : Artifact) : List FilePath := [artifact.path, artifact.path.temp]

theorem path_mem_touched (artifact : Artifact) : artifact.path ∈ touched artifact :=
  List.mem_cons_self

theorem temp_mem_touched (artifact : Artifact) : artifact.path.temp ∈ touched artifact :=
  List.mem_cons_of_mem _ (List.mem_singleton_self _)

/-- A chunk moves from what is to be read to what has been hashed. -/
theorem hashed_append_chunk (hashed rest : Bytes) :
    hashed ++ chunk rest ++ rest.drop 8192 = hashed ++ rest := by
  rw [chunk, List.append_assoc, List.take_append_drop]

theorem knows_of_step {s next : Download} {event : Event}
    (hstep : Step digest artifact s event next) (h : Knows digest artifact s.files s.point) :
    Knows digest artifact next.files next.point := by
  cases hstep
  case openDest hcontent => exact hcontent
  case reopenTemp hcontent => exact hcontent
  case readDest hashed rest hpoint =>
    rw [hpoint] at h
    exact h.trans (congrArg some (hashed_append_chunk hashed rest).symm)
  case readTemp hashed rest hpoint =>
    rw [hpoint] at h
    exact h.trans (congrArg some (hashed_append_chunk hashed rest).symm)
  case matchDest hashed hpoint hdigest =>
    rw [hpoint] at h
    exact ⟨hashed ++ [], h, by rwa [List.append_nil]⟩
  case matchTemp hashed hpoint hdigest =>
    rw [hpoint] at h
    exact ⟨hashed ++ [], h, by rwa [List.append_nil]⟩
  case replaceDest content hpoint hcontent =>
    rw [hpoint] at h
    obtain ⟨verified, hverified, hdigest⟩ := h
    obtain rfl := Option.some.inj (hcontent.symm.trans hverified)
    exact ⟨content, write_self _ _ _, hdigest⟩
  case report hpoint =>
    rw [hpoint] at h
    exact h
  all_goals trivial

/-- The destination is written only by a rename of a verified file. -/
theorem dest_of_step {s next : Download} {event : Event}
    (hstep : Step digest artifact s event next) (h : Knows digest artifact s.files s.point) :
    next.files artifact.path = s.files artifact.path ∨
      Verified digest artifact (next.files artifact.path) := by
  have htemp : artifact.path ≠ artifact.path.temp := artifact.path.temp_ne.symm
  have hknows := knows_of_step hstep h
  cases hstep
  case openTemp | block => exact .inl (write_of_ne htemp _)
  case removeTemp => exact .inl (unlink_of_ne htemp)
  case replaceDest => exact .inr hknows
  all_goals exact .inl rfl

theorem changesOnly_of_step {s next : Download} {event : Event}
    (hstep : Step digest artifact s event next) :
    ChangesOnly (touched artifact) s.files next.files := by
  cases hstep
  case openTemp | block => exact changesOnly_write (temp_mem_touched artifact) _
  case removeTemp => exact changesOnly_unlink (temp_mem_touched artifact)
  case replaceDest =>
    exact (changesOnly_unlink (temp_mem_touched artifact)).trans
      (changesOnly_write (path_mem_touched artifact) _)
  all_goals exact .refl _ _

/-- What holds at every moment of a `download_file` that found the files `origin`. -/
structure Safe (digest : Bytes → String) (artifact : Artifact) (origin : Files FilePath Bytes)
    (s : Download) : Prop where
  knows : Knows digest artifact s.files s.point
  dest : s.files artifact.path = origin artifact.path ∨
    Verified digest artifact (s.files artifact.path)
  others : ChangesOnly (touched artifact) origin s.files

theorem safe_of_reachable {first s : Download} (hfirst : first.point = .verifyDest)
    (hreach : ((machine digest artifact).startingAt first).Reachable s) :
    Safe digest artifact first.files s := by
  apply hreach.invariant
  · rintro s rfl
    refine ⟨?_, .inl rfl, .refl _ _⟩
    rw [hfirst]
    trivial
  · intro s event next _ h hevent
    have hstep : Step digest artifact s event next := step_cases hevent
    refine ⟨knows_of_step hstep h.knows, ?_, h.others.trans (changesOnly_of_step hstep)⟩
    rcases dest_of_step hstep h.knows with hsame | hverified
    · rw [hsame]
      exact h.dest
    · exact .inr hverified

/-! ## `main` -/

/-- `ARTIFACTS_DIR / name`, or in a directory below it. -/
def artifactPath (below : List String) (name : List Char) (h : name ≠ []) : FilePath :=
  ⟨["artifacts", "model"] ++ below, name, h⟩

def exportUrl : String :=
  "https://huggingface.co/fxmarty/tiny-bert-sst2-distilled-onnx-subfolder"

def sourceUrl : String := "https://huggingface.co/philschmid/tiny-bert-sst2-distilled"

/-- `FILES`. -/
def files : List Artifact :=
  [{ path := artifactPath [] "model.onnx".toList (by decide)
     url := exportUrl ++ "/resolve/d3017b38272765ae30e68f73de1fcb432bb97f3d/my_subfolder/model.onnx"
     sha256 := "23ea44ed3eb302e22045900ba8565dd672a9f4c127f5514ce182f01d83fe2e3a" },
    { path := artifactPath [] "config.json".toList (by decide)
      url :=
        exportUrl ++ "/resolve/d3017b38272765ae30e68f73de1fcb432bb97f3d/my_subfolder/config.json"
      sha256 := "3049b86c8f85f0bb54c79b359c9b91f6581e13f2a28d5e5eaac97381b53cb077" },
    { path := artifactPath [] "tokenizer.json".toList (by decide)
      url := sourceUrl ++ "/resolve/874eb28543ea7a7df80b6158bbf772d203efcab6/tokenizer.json"
      sha256 := "99e552efd3b68340ef1b1106ea152526659a9c525992f008fe4c182a5a587234" },
    { path := artifactPath ["licenses"] "onnx-export-README.md".toList (by decide)
      url := exportUrl ++ "/raw/d3017b38272765ae30e68f73de1fcb432bb97f3d/README.md"
      sha256 := "98b45ea81164d1e1a1dd82255207053b15cd6c69d922a1c5cf3387ce604d4b74" },
    { path := artifactPath ["licenses"] "source-model-README.md".toList (by decide)
      url := sourceUrl ++ "/raw/874eb28543ea7a7df80b6158bbf772d203efcab6/README.md"
      sha256 := "8b2aeb54de195d4023fdb47af43646271c9b354a6e853d3a41ed93b3f52d0b7d" }]

/-- The download of one item does not get in the way of another's. -/
def Apart (artifact other : Artifact) : Prop :=
  other.path ≠ artifact.path.temp ∧ (other.path = artifact.path → other.sha256 = artifact.sha256)

instance : DecidableRel Apart := fun _ _ => inferInstanceAs (Decidable (_ ∧ _))

theorem files_apart : ∀ artifact ∈ files, ∀ other ∈ files, Apart artifact other := by
  decide +kernel

/-- Where `main` stands: in the download of one item, with the `rest` after it. -/
inductive MainPoint
  | item (artifact : Artifact) (rest : List Artifact) (point : Point)
  | finished (how : Ending)
  deriving DecidableEq

structure Main where
  files : Files FilePath Bytes
  point : MainPoint

inductive MainEvent
  | download (event : Event)
  /-- The process stops, or has ended, and `main` is run again. -/
  | restart

/-- The next round of the loop. -/
def nextItem : List Artifact → MainPoint
  | [] => .finished .returned
  | artifact :: rest => .item artifact rest .verifyDest

/-- Where a step of `download_file` leads. -/
def afterDownload (artifact : Artifact) (rest : List Artifact) : Point → MainPoint
  | .finished .returned => nextItem rest
  | .finished .raised => .finished .raised
  | point => .item artifact rest point

def mainStep (digest : Bytes → String) (items : List Artifact) (s : Main) :
    MainEvent → Option Main
  | .restart => some { s with point := nextItem items }
  | .download event =>
      match s.point with
      | .finished _ => none
      | .item artifact rest point =>
          (step digest artifact ⟨s.files, point⟩ event).map fun next =>
            ⟨next.files, afterDownload artifact rest next.point⟩

/-- `main`, over any list of items. -/
def mainMachine (digest : Bytes → String) (items : List Artifact) : Machine Main MainEvent where
  Initial s := s.point = nextItem items
  step := mainStep digest items

/-- The items before the current one are verified. -/
def Progress (digest : Bytes → String) (items : List Artifact) (s : Main) : Prop :=
  match s.point with
  | .item artifact rest point =>
      (∃ before, items = before ++ artifact :: rest ∧
        ∀ other ∈ before, Verified digest other (s.files other.path)) ∧
      Knows digest artifact s.files point
  | .finished .returned => ∀ artifact ∈ items, Verified digest artifact (s.files artifact.path)
  | .finished .raised => True

/-- A verified item stays verified while another one is downloaded. -/
theorem verified_of_step {s next : Download} {event : Event} {other : Artifact}
    (hstep : Step digest artifact s event next) (h : Knows digest artifact s.files s.point)
    (hapart : Apart artifact other) (hother : Verified digest other (s.files other.path)) :
    Verified digest other (next.files other.path) := by
  by_cases hsame : other.path = artifact.path
  · rcases dest_of_step hstep h with hkept | ⟨content, hcontent, hdigest⟩
    · rwa [hsame, hkept, ← hsame]
    · rw [hsame]
      exact ⟨content, hcontent, hdigest.trans (hapart.2 hsame).symm⟩
  · rwa [changesOnly_of_step hstep other.path (by simp [touched, hsame, hapart.1])]

theorem progress_of_nextItem {items before rest : List Artifact} {files : Files FilePath Bytes}
    (hitems : items = before ++ rest)
    (hbefore : ∀ other ∈ before, Verified digest other (files other.path)) :
    Progress digest items ⟨files, nextItem rest⟩ := by
  cases rest with
  | nil =>
      rw [List.append_nil] at hitems
      exact hitems ▸ hbefore
  | cons artifact rest => exact ⟨⟨before, hitems, hbefore⟩, trivial⟩

theorem progress_of_step {items : List Artifact}
    (hapart : ∀ artifact ∈ items, ∀ other ∈ items, Apart artifact other) {s next : Main}
    {event : MainEvent} (hstep : mainStep digest items s event = some next)
    (h : Progress digest items s) : Progress digest items next := by
  cases event with
  | restart =>
      obtain rfl := Option.some.inj hstep
      exact progress_of_nextItem (List.nil_append items).symm (by simp)
  | download event =>
      obtain ⟨files, point⟩ := s
      cases point with
      | finished how => cases hstep
      | item artifact rest point =>
          obtain ⟨⟨before, rfl, hbefore⟩, hknows⟩ := h
          obtain ⟨later, hlater, rfl⟩ := Option.map_eq_some_iff.mp hstep
          have hdownload := step_cases hlater
          have hknows' := knows_of_step hdownload hknows
          have hbefore' : ∀ other ∈ before, Verified digest other (later.files other.path) :=
            fun other hother => verified_of_step hdownload hknows
              (hapart artifact (by simp) other (List.mem_append_left _ hother))
              (hbefore other hother)
          obtain ⟨files', point'⟩ := later
          cases point' with
          | finished how =>
              cases how with
              | raised => trivial
              | returned =>
                  apply progress_of_nextItem (List.append_cons before artifact rest)
                  intro other hother
                  rcases List.mem_append.mp hother with hother | hother
                  · exact hbefore' other hother
                  · rw [List.mem_singleton.mp hother]
                    exact hknows'
          | _ => exact ⟨⟨before, rfl, hbefore'⟩, hknows'⟩

theorem progress_of_reachable {items : List Artifact}
    (hapart : ∀ artifact ∈ items, ∀ other ∈ items, Apart artifact other) {s : Main}
    (hreach : (mainMachine digest items).Reachable s) : Progress digest items s := by
  apply hreach.invariant
  · rintro ⟨files, point⟩ rfl
    exact progress_of_nextItem (List.nil_append items).symm (by simp)
  · intro s event next _ h hevent
    exact progress_of_step hapart hevent h

/-- **The verified download is crash-safe.**  At every moment of `download_file`, whatever
is written and wherever it raises or stops, the destination is as it was or has the
expected digest, and it has it once the function has returned; nothing but the
destination and its `.tmp` sibling has changed.  So once `main` has returned, after any
earlier failures and runs, every file of `FILES` has its digest. -/
theorem download_crash_safe (digest : Bytes → String) :
    (∀ artifact first s, first.point = .verifyDest →
      ((machine digest artifact).startingAt first).Reachable s →
      (s.files artifact.path = first.files artifact.path ∨
        Verified digest artifact (s.files artifact.path)) ∧
      (s.point = .finished .returned → Verified digest artifact (s.files artifact.path)) ∧
      ∀ path, path ≠ artifact.path → path ≠ artifact.path.temp →
        s.files path = first.files path) ∧
    ∀ s, (mainMachine digest files).Reachable s → s.point = .finished .returned →
      ∀ artifact ∈ files, Verified digest artifact (s.files artifact.path) := by
  constructor
  · intro artifact first s hfirst hreach
    have hsafe := safe_of_reachable hfirst hreach
    refine ⟨hsafe.dest, fun hreturned => ?_, fun path hpath htemp => ?_⟩
    · have hknows := hsafe.knows
      rwa [hreturned] at hknows
    · exact hsafe.others path (by simp [touched, hpath, htemp])
  · intro s hreach hreturned
    have hprogress := progress_of_reachable files_apart hreach
    unfold Progress at hprogress
    rw [hreturned] at hprogress
    exact hprogress

/-! ## A failed run, and the next one -/

/-- A digest under which the file that holds `[i]` is the `i`-th item. -/
def sampleDigest : Bytes → String
  | [i] => (files.map Artifact.sha256).getD i.toNat ""
  | _ => ""

/-- `main` runs `download_file` for an item that is not there, and is sent `bytes`. -/
def fetch (bytes : Bytes) : List MainEvent :=
  [.run, .run, .run, .block bytes, .retrieved, .run, .run, .run, .run, .run].map .download

/-- Wrong bytes come for the first item, and `main` raises.  It is run again. -/
def sampleEvents : List MainEvent :=
  [.run, .run, .run, .block [9, 9], .retrieved, .run, .run, .run, .run].map .download ++
    .restart :: [0, 1, 2, 3, 4].flatMap fun i => fetch [i]

def nothing : Files FilePath Bytes := fun _ => none

def firstMain : Main := ⟨nothing, nextItem files⟩

def lastMain : Main := (mainMachine sampleDigest files).after firstMain sampleEvents

/-- The model is there, but it is an old one, and the download stops halfway. -/
def oldModel : Artifact := ⟨artifactPath [] "model.onnx".toList (by decide), exportUrl, "new"⟩

def oldDownload : Download := ⟨write nothing oldModel.path [7], .verifyDest⟩

def tornDownload : Download :=
  ((machine sampleDigest oldModel).startingAt oldDownload).after oldDownload
    [.run, .run, .run, .run, .run, .block [1], .raise]

theorem download_crash_safe_sample :
    (tornDownload.point = .finished .raised ∧
      tornDownload.files oldModel.path.temp = some [1] ∧
      (tornDownload.files oldModel.path = some [7] ∨
        Verified sampleDigest oldModel (tornDownload.files oldModel.path))) ∧
    ∀ artifact ∈ files, Verified sampleDigest artifact (lastMain.files artifact.path) := by
  have hsafe := download_crash_safe sampleDigest
  refine ⟨⟨by decide +kernel, by decide +kernel, ?_⟩, ?_⟩
  · exact (hsafe.1 oldModel oldDownload _ rfl ((Machine.Reachable.initial rfl).after _)).1
  · exact hsafe.2 lastMain ((Machine.Reachable.initial rfl).after _) (by decide +kernel)

end ModelServer.DownloadModel

import Mathlib.Algebra.GroupWithZero.Nat
import Mathlib.Algebra.BigOperators.Group.List.Basic
import ModelServer.Gateway.App

/-!
# The language that `/v1/predict` accepts

`Documented` is the language of the public contract, field by field.  The handler
accepts it (`accepts_iff`) with three exceptions, which come from Python's rules:

* `$` holds before a newline at the end, so that an id may be followed by one;
* a boolean is an `int`, so that it is a timeout if its number is in the range;
* the default timeout is checked like any other, so that it has to be in the range.

The reading of each field has one lemma that says when it succeeds.
-/

namespace ModelServer.App

open Python

variable {config : HttpConfig}

/-! ## The documented language -/

/-- 1 to 64 characters of `[A-Za-z0-9._-]`. -/
def IsRequestId (s : Str) : Prop := 1 ≤ s.length ∧ s.length ≤ 64 ∧ ∀ point ∈ s, isIdChar point

def RequestIdDocumented : Option Json → Prop
  | none | some .null => True
  | some (.string s) => IsRequestId s
  | some _ => False

/-- A text within the limit of a single one. -/
def FitsInput (config : HttpConfig) (text : String) : Prop :=
  text ≠ "" ∧ (text.utf8ByteSize : ℤ) ≤ config.maxInputBytes

/-- The texts that have a UTF-8 form are those of Lean. -/
def jsonText (text : String) : Json := .string (Str.ofString text)

def InputsDocumented (config : HttpConfig) (field : Option Json) : Prop :=
  ∃ texts : List String, field = some (.array (texts.map jsonText)) ∧
    1 ≤ texts.length ∧ (texts.length : ℤ) ≤ config.maxInputsPerRequest ∧
    (∀ text ∈ texts, FitsInput config text) ∧
    ((texts.map String.utf8ByteSize).sum : ℤ) ≤ config.maxTotalInputBytes

def ModelVersionDocumented (config : HttpConfig) : Option Json → Prop
  | none => True
  | some (.string s) => s = Str.ofString config.modelVersion
  | some _ => False

def TimeoutDocumented (config : HttpConfig) : Option Json → Prop
  | none => True
  | some (.int timeoutMs) => InRange config timeoutMs
  | some _ => False

/-- Everything but the request id and the timeout. -/
structure RestDocumented (config : HttpConfig) (members : List (Str × Json)) : Prop where
  keys : ∀ member ∈ members, member.1 ∈ allowedKeys
  inputs : InputsDocumented config (Json.get members "inputs")
  modelVersion : ModelVersionDocumented config (Json.get members "model_version")

/-- The documented language. -/
def Documented (config : HttpConfig) : Json → Prop
  | .object members => RestDocumented config members ∧
      RequestIdDocumented (Json.get members "request_id") ∧
      TimeoutDocumented config (Json.get members "timeout_ms")
  | _ => False

/-! ## The request id -/

theorem not_isIdChar_newline : isIdChar newline = false := by decide

theorem requestIdMatches_iff {s : Str} :
    requestIdMatches s ↔ IsRequestId s ∨ ∃ id, IsRequestId id ∧ s = id ++ [newline] := by
  have hsplit : requestIdMatches s ↔ ∃ id rest, s = id ++ rest ∧ IsRequestId id ∧
      (rest = [] ∨ rest = [newline]) := by
    simp only [requestIdMatches, atEnd, List.any_eq_true, List.mem_range'_1, decide_eq_true_eq]
    constructor
    · rintro ⟨count, ⟨hone, hmany⟩, hle, hall, hrest⟩
      refine ⟨s.take count, s.drop count, (List.take_append_drop count s).symm, ?_, hrest⟩
      have hlength : (s.take count).length = count := List.length_take_of_le hle
      exact ⟨by omega, by omega, List.all_eq_true.mp hall⟩
    · rintro ⟨id, rest, rfl, ⟨hone, hmany, hall⟩, hrest⟩
      refine ⟨id.length, ⟨by omega, by omega⟩, by simp, ?_, ?_⟩
      · simpa using hall
      · simpa using hrest
  rw [hsplit]
  constructor
  · rintro ⟨id, rest, rfl, hid, rfl | rfl⟩
    · exact .inl (by simpa using hid)
    · exact .inr ⟨id, hid, rfl⟩
  · rintro (hid | ⟨id, hid, rfl⟩)
    · exact ⟨s, [], by simp, hid, .inl rfl⟩
    · exact ⟨id, [newline], rfl, hid, .inr rfl⟩

/-- What the code takes for a request id. -/
def RequestIdAccepted : Option Json → Prop
  | none | some .null => True
  | some (.string s) => requestIdMatches s
  | some _ => False

theorem readRequestId_ok (generated : Str) {field : Option Json} :
    (∃ requestId, readRequestId generated field = .ok requestId) ↔ RequestIdAccepted field := by
  rcases field with _ | value
  · simp [readRequestId, RequestIdAccepted]
  · cases value with
    | string s => by_cases h : requestIdMatches s <;> simp [readRequestId, RequestIdAccepted, h]
    | _ => simp [readRequestId, RequestIdAccepted]

/-- An id followed by a newline. -/
def EndsWithNewline (field : Option Json) : Prop :=
  ∃ id, IsRequestId id ∧ field = some (.string (id ++ [newline]))

theorem requestIdAccepted_iff {field : Option Json} :
    RequestIdAccepted field ↔ RequestIdDocumented field ∨ EndsWithNewline field := by
  rcases field with _ | value
  · simp [RequestIdAccepted, RequestIdDocumented]
  · cases value <;>
      simp [RequestIdAccepted, RequestIdDocumented, EndsWithNewline, requestIdMatches_iff]

theorem not_documented_of_newline {field : Option Json} (h : EndsWithNewline field) :
    ¬ RequestIdDocumented field := by
  obtain ⟨id, _, rfl⟩ := h
  rintro ⟨_, _, hall⟩
  have hnewline := hall newline (by simp)
  simp [not_isIdChar_newline] at hnewline

/-! ## The inputs -/

theorem inputBytes_eq_ok {inp : Json} {bytes : ℕ} :
    inputBytes config inp = .ok bytes ↔
      ∃ text, inp = jsonText text ∧ FitsInput config text ∧ bytes = text.utf8ByteSize := by
  constructor
  · intro h
    cases inp with
    | string s =>
        simp only [inputBytes] at h
        split at h
        · cases h
        · rename_i hne
          split at h
          · cases h
          · rename_i text hencode
            obtain rfl := Str.encode_eq_some.mp hencode
            split at h
            · cases h
            · rename_i hfits
              cases h
              exact ⟨text, rfl, ⟨mt Str.ofString_eq_nil.mpr hne, not_lt.mp hfits⟩, rfl⟩
    | _ => cases h
  · rintro ⟨text, rfl, ⟨hne, hfits⟩, rfl⟩
    simp [inputBytes, jsonText, Str.ofString_eq_nil, hne, not_lt.mpr hfits]

theorem totalBytes_eq_ok {inputs : List Json} {total sum : ℕ} :
    totalBytes config total inputs = .ok sum ↔
      ∃ texts : List String, inputs = texts.map jsonText ∧ (∀ text ∈ texts, FitsInput config text) ∧
        sum = total + (texts.map String.utf8ByteSize).sum := by
  induction inputs generalizing total with
  | nil =>
      simp only [totalBytes, Except.ok.injEq]
      constructor
      · rintro rfl
        exact ⟨[], rfl, by simp, rfl⟩
      · rintro ⟨texts, htexts, _, rfl⟩
        obtain rfl := List.map_eq_nil_iff.mp htexts.symm
        rfl
  | cons inp inputs ih =>
      simp only [totalBytes, bind_eq_ok, inputBytes_eq_ok, ih]
      constructor
      · rintro ⟨_, ⟨text, rfl, hfits, rfl⟩, texts, rfl, hall, rfl⟩
        refine ⟨text :: texts, rfl, List.forall_mem_cons.mpr ⟨hfits, hall⟩, ?_⟩
        rw [List.map_cons, List.sum_cons, Nat.add_assoc]
      · rintro ⟨texts, htexts, hall, rfl⟩
        obtain ⟨text, texts, rfl, rfl, rfl⟩ := List.map_eq_cons_iff.mp htexts.symm
        obtain ⟨hfits, hall⟩ := List.forall_mem_cons.mp hall
        refine ⟨_, ⟨text, rfl, hfits, rfl⟩, texts, rfl, hall, ?_⟩
        rw [List.map_cons, List.sum_cons, Nat.add_assoc]

theorem readInputs_eq_ok {field : Option Json} {inputs : List Json} :
    readInputs config field = .ok inputs ↔ field = some (.array inputs) ∧
      1 ≤ inputs.length ∧ (inputs.length : ℤ) ≤ config.maxInputsPerRequest := by
  constructor
  · intro h
    unfold readInputs at h
    split at h
    · split at h
      · cases h
      · rename_i helements
        cases h
        rw [not_or, not_lt, List.isEmpty_iff] at helements
        exact ⟨rfl, List.length_pos_iff.mpr helements.1, helements.2⟩
    · cases h
  · rintro ⟨rfl, hone, hmany⟩
    have hne : inputs ≠ [] := List.length_pos_iff.mp hone
    simp [readInputs, hne, not_lt.mpr hmany]

theorem checkTotal_eq_ok {total : ℕ} :
    checkTotal config total = .ok () ↔ (total : ℤ) ≤ config.maxTotalInputBytes := by
  by_cases h : config.maxTotalInputBytes < total
  · simp [checkTotal, h]
  · simp [checkTotal, h, not_lt.mp h]

/-- The three checks of the inputs. -/
theorem inputs_ok_iff {field : Option Json} :
    (∃ inputs total, readInputs config field = .ok inputs ∧
        totalBytes config 0 inputs = .ok total ∧ checkTotal config total = .ok ()) ↔
      InputsDocumented config field := by
  simp only [readInputs_eq_ok, totalBytes_eq_ok, checkTotal_eq_ok]
  constructor
  · rintro ⟨_, _, ⟨rfl, hone, hmany⟩, ⟨texts, rfl, hfits, rfl⟩, htotal⟩
    refine ⟨texts, rfl, ?_, ?_, hfits, ?_⟩
    · simpa using hone
    · simpa using hmany
    · simpa using htotal
  · rintro ⟨texts, rfl, hone, hmany, hfits, htotal⟩
    refine ⟨_, _, ⟨rfl, ?_, ?_⟩, ⟨texts, rfl, hfits, rfl⟩, ?_⟩
    · simpa using hone
    · simpa using hmany
    · simpa using htotal

/-! ## Model version and timeout -/

theorem readModelVersion_ok {field : Option Json} :
    (∃ modelVersion, readModelVersion config field = .ok modelVersion) ↔
      ModelVersionDocumented config field := by
  rcases field with _ | value
  · simp [readModelVersion, ModelVersionDocumented]
  · cases value with
    | string s =>
        by_cases h : s = Str.ofString config.modelVersion <;>
          simp [readModelVersion, ModelVersionDocumented, h]
    | _ => simp [readModelVersion, ModelVersionDocumented]

/-- What the code takes for a timeout. -/
def TimeoutAccepted (config : HttpConfig) (field : Option Json) : Prop :=
  ∃ timeoutMs, (field.getD (.int config.defaultTimeoutMs)).int? = some timeoutMs ∧
    InRange config timeoutMs

theorem readTimeoutMs_ok {field : Option Json} :
    (∃ timeoutMs, readTimeoutMs config field = .ok timeoutMs) ↔ TimeoutAccepted config field := by
  unfold readTimeoutMs TimeoutAccepted
  cases (field.getD (.int config.defaultTimeoutMs)).int? with
  | none => simp
  | some timeoutMs => by_cases h : InRange config timeoutMs <;> simp [h]

/-- A boolean whose number is in the range. -/
def IsBoolInRange (config : HttpConfig) (field : Option Json) : Prop :=
  ∃ value, field = some (.bool value) ∧ InRange config (if value then 1 else 0)

theorem timeoutAccepted_iff {field : Option Json} :
    TimeoutAccepted config field ↔
      TimeoutDocumented config field ∧ (field = none → InRange config config.defaultTimeoutMs) ∨
        IsBoolInRange config field := by
  rcases field with _ | value
  · simp [TimeoutAccepted, TimeoutDocumented, IsBoolInRange, Json.int?]
  · cases value <;> simp [TimeoutAccepted, TimeoutDocumented, IsBoolInRange, Json.int?]

theorem not_documented_of_bool {field : Option Json} (h : IsBoolInRange config field) :
    ¬ TimeoutDocumented config field := by
  obtain ⟨value, rfl, _⟩ := h
  exact id

/-! ## The whole request -/

theorem validate_ok_iff {generated : Str} {members : List (Str × Json)} :
    (∃ args, validate config generated (some (.object members)) = .ok args) ↔
      RestDocumented config members ∧ RequestIdAccepted (Json.get members "request_id") ∧
        TimeoutAccepted config (Json.get members "timeout_ms") := by
  have hkeys : (members.any fun member => member.1 ∉ allowedKeys) = false ↔
      ∀ member ∈ members, member.1 ∈ allowedKeys := by
    simp
  rw [← readRequestId_ok generated, ← readTimeoutMs_ok]
  constructor
  · rintro ⟨args, h⟩
    simp only [validate] at h
    split at h
    · cases h
    · rename_i hknown
      rw [Bool.not_eq_true, hkeys] at hknown
      simp only [bind_eq_ok] at h
      obtain ⟨requestId, hid, inputs, hinputs, total, hbytes, _, htotal, version, hversion,
        timeoutMs, htimeout, _⟩ := h
      exact ⟨⟨hknown, inputs_ok_iff.mp ⟨inputs, total, hinputs, hbytes, htotal⟩,
        readModelVersion_ok.mp ⟨version, hversion⟩⟩, ⟨requestId, hid⟩, timeoutMs, htimeout⟩
  · rintro ⟨⟨hknown, hinputs, hversion⟩, ⟨requestId, hid⟩, timeoutMs, htimeout⟩
    obtain ⟨inputs, total, hread, hbytes, htotal⟩ := inputs_ok_iff.mpr hinputs
    obtain ⟨version, hversion⟩ := readModelVersion_ok.mpr hversion
    refine ⟨⟨requestId, inputs, version, timeoutMs⟩, ?_⟩
    simp only [validate, hkeys.mpr hknown, Bool.false_eq_true, if_false, bind_eq_ok]
    exact ⟨_, hid, _, hread, _, hbytes, _, htotal, _, hversion, _, htimeout, rfl⟩

/-- The requests on which code and contract differ: they are fine but for an id followed by
a newline, a boolean timeout or a default timeout out of range. -/
def Exceptional (config : HttpConfig) : Json → Prop
  | .object members => RestDocumented config members ∧
      (EndsWithNewline (Json.get members "request_id") ∧
          TimeoutAccepted config (Json.get members "timeout_ms") ∨
        RequestIdAccepted (Json.get members "request_id") ∧
          IsBoolInRange config (Json.get members "timeout_ms") ∨
        RequestIdDocumented (Json.get members "request_id") ∧
          Json.get members "timeout_ms" = none ∧ ¬ InRange config config.defaultTimeoutMs)
  | _ => False

/-- **Validation.**  For every JSON value and every configuration, the handler goes on to
`client.predict` exactly for the documented requests, unless the request is exceptional. -/
theorem accepts_iff (config : HttpConfig) (generated : Str) (value : Json) :
    ((∃ args, validate config generated (some value) = .ok args) ↔ Documented config value) ↔
      ¬ Exceptional config value := by
  cases value with
  | object members =>
      have hid : RequestIdAccepted (Json.get members "request_id") ↔ _ := requestIdAccepted_iff
      have htimeout : TimeoutAccepted config (Json.get members "timeout_ms") ↔ _ :=
        timeoutAccepted_iff
      rw [validate_ok_iff]
      constructor
      · rintro hiff ⟨hrest, ⟨hnewline, haccepted⟩ | ⟨haccepted, hbool⟩ |
          ⟨hdocumented, habsent, hout⟩⟩
        · exact not_documented_of_newline hnewline
            (hiff.mp ⟨hrest, hid.mpr (.inr hnewline), haccepted⟩).2.1
        · exact not_documented_of_bool hbool
            (hiff.mp ⟨hrest, haccepted, htimeout.mpr (.inr hbool)⟩).2.2
        · have hfine : TimeoutDocumented config (Json.get members "timeout_ms") := by
            rw [habsent]
            trivial
          rcases htimeout.mp (hiff.mpr ⟨hrest, hdocumented, hfine⟩).2.2 with ⟨_, hin⟩ | hbool
          · exact hout (hin habsent)
          · exact not_documented_of_bool hbool hfine
      · intro hordinary
        constructor
        · rintro ⟨hrest, hidAccepted, htimeAccepted⟩
          refine ⟨hrest, ?_, ?_⟩
          · rcases hid.mp hidAccepted with hdocumented | hnewline
            · exact hdocumented
            · exact absurd ⟨hrest, .inl ⟨hnewline, htimeAccepted⟩⟩ hordinary
          · rcases htimeout.mp htimeAccepted with ⟨hdocumented, _⟩ | hbool
            · exact hdocumented
            · exact absurd ⟨hrest, .inr (.inl ⟨hidAccepted, hbool⟩)⟩ hordinary
        · rintro ⟨hrest, hidDocumented, htimeDocumented⟩
          refine ⟨hrest, hid.mpr (.inl hidDocumented), htimeout.mpr (.inl ⟨htimeDocumented, ?_⟩)⟩
          intro habsent
          by_contra hout
          exact hordinary ⟨hrest, .inr (.inr ⟨hidDocumented, habsent, hout⟩)⟩
  | _ => simp [validate, Documented, Exceptional]

/-- `{"request_id": "abc\n", "inputs": ["a"]}` -/
def newlineRequest : Json :=
  .object [(Str.ofString "request_id", jsonText "abc\n"),
    (Str.ofString "inputs", .array [jsonText "a"])]

/-- An id with a newline after it is accepted. -/
theorem newline_accepted :
    ¬ ∀ (config : HttpConfig) (value : Json),
      (∃ args, validate config [] (some value) = .ok args) ↔ Documented config value := by
  intro hlanguage
  have haccepted : (validate {} [] (some newlineRequest)).isOk = true := by decide +kernel
  have hargs : ∃ args, validate {} [] (some newlineRequest) = .ok args := by
    cases hresult : validate {} [] (some newlineRequest) with
    | ok args => exact ⟨args, rfl⟩
    | error _ => simp [hresult, Except.isOk, Except.toBool] at haccepted
  obtain ⟨_, hid, _⟩ := (hlanguage {} newlineRequest).mp hargs
  have hfield : Json.get [(Str.ofString "request_id", jsonText "abc\n"),
      (Str.ofString "inputs", .array [jsonText "a"])] "request_id" =
        some (.string (Str.ofString "abc" ++ [newline])) := by
    rfl
  rw [hfield] at hid
  have hchars : (Str.ofString "abc").all isIdChar = true := by decide +kernel
  have hid' : IsRequestId (Str.ofString "abc") :=
    ⟨by decide, by decide, List.all_eq_true.mp hchars⟩
  exact not_documented_of_newline ⟨_, hid', rfl⟩ hid

end ModelServer.App

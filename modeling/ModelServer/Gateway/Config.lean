import ModelServer.Gateway.Registry
import ModelServer.Library.Dictionary
import ModelServer.Library.Text

/-!
# `config.py`

`__post_init__` reads the workers from the text of `WORKERS`.  `Rendered` is the
format it is meant for, with all the blanks and empty items that are allowed in it;
`workers_round_trip` says that every such text is read as what it was written from.

The other fields are each read from a variable of their own, and play no part here.
-/

namespace ModelServer

/-! ## Reading `WORKERS` -/

/-- The code points that `str.strip` removes. -/
def spaces : List ℕ :=
  [0x09, 0x0A, 0x0B, 0x0C, 0x0D, 0x1C, 0x1D, 0x1E, 0x1F, 0x20, 0x85, 0xA0, 0x1680, 0x2000, 0x2001,
    0x2002, 0x2003, 0x2004, 0x2005, 0x2006, 0x2007, 0x2008, 0x2009, 0x200A, 0x2028, 0x2029, 0x202F,
    0x205F, 0x3000]

def isSpace (symbol : Char) : Bool := spaces.contains symbol.toNat

def strip (text : List Char) : List Char := Text.strip isSpace text

/-- One round of the loop. -/
def parseItem (parsed : Dict String String) (item : List Char) : Dict String String :=
  if strip item = [] then parsed
  else
    match Text.splitOnce '=' (strip item) with
    | some (wid, addr) => parsed.set (String.ofList (strip wid)) (String.ofList (strip addr))
    | none => parsed.set (String.ofList (strip item)) (String.ofList (strip item))

def parseWorkers (workersRaw : String) : Dict String String :=
  (workersRaw.toList.splitOn ',').foldl parseItem Dict.empty

/-- `__post_init__`, of a configuration with these `workers`. -/
def GatewayConfig.postInit (config : GatewayConfig) (workersRaw : String) : GatewayConfig :=
  if config.workers = [] ∧ workersRaw ≠ "" then
    { config with
      workers := (parseWorkers workersRaw).items
      nodup := (parseWorkers workersRaw).nodup }
  else config

/-! ## The format -/

/-- No blank at either end. -/
abbrev Trimmed (text : String) : Prop := Text.Trimmed isSpace text.toList

structure WorkerId (text : String) : Prop where
  ne_empty : text ≠ ""
  comma : ',' ∉ text.toList
  equals : '=' ∉ text.toList
  trimmed : Trimmed text

structure Address (text : String) : Prop where
  ne_empty : text ≠ ""
  comma : ',' ∉ text.toList
  trimmed : Trimmed text

abbrev Blank (text : List Char) : Prop := Text.Blank isSpace text

/-- The items between the commas that stand for the entries, in this order. -/
inductive Rendered : List (String × String) → List (List Char) → Prop
  | nil : Rendered [] []
  | blank {entries : List (String × String)} {items : List (List Char)} {space : List Char}
      (hspace : Blank space) : Rendered entries items → Rendered entries (space :: items)
  | entry {entries : List (String × String)} {items : List (List Char)} {id address : String}
      {before afterId beforeAddress after : List Char} (hbefore : Blank before)
      (hafterId : Blank afterId) (hbeforeAddress : Blank beforeAddress) (hafter : Blank after) :
      Rendered entries items → Rendered ((id, address) :: entries)
        ((before ++ id.toList ++ afterId ++ '=' :: beforeAddress ++ address.toList ++ after) ::
          items)
  -- a worker whose address is its id
  | bare {entries : List (String × String)} {items : List (List Char)} {id : String}
      {before after : List Char} (hbefore : Blank before) (hafter : Blank after) :
      Rendered entries items →
        Rendered ((id, id) :: entries) ((before ++ id.toList ++ after) :: items)

/-- The text of `WORKERS`. -/
def render (items : List (List Char)) : String := String.ofList ([','].intercalate items)

/-! ## What an item is read as -/

theorem notMem_of_blank {symbol : Char} (h : isSpace symbol = false) {space : List Char}
    (hspace : Blank space) : symbol ∉ space := by
  intro hmem
  rw [hspace symbol hmem] at h
  cases h

theorem toList_ne_nil {text : String} (h : text ≠ "") : text.toList ≠ [] :=
  fun hnil => h (String.toList_eq_nil_iff.mp hnil)

theorem parseItem_blank (parsed : Dict String String) {space : List Char} (h : Blank space) :
    parseItem parsed space = parsed :=
  if_pos (Text.strip_of_blank h)

theorem parseItem_entry (parsed : Dict String String) {id address : String} (hid : WorkerId id)
    (haddress : Address address) {before afterId beforeAddress after : List Char}
    (hbefore : Blank before) (hafterId : Blank afterId) (hbeforeAddress : Blank beforeAddress)
    (hafter : Blank after) :
    parseItem parsed
        (before ++ id.toList ++ afterId ++ '=' :: beforeAddress ++ address.toList ++ after) =
      parsed.set id address := by
  have hnil : Blank [] := by simp [Text.Blank]
  have hinner : Text.Trimmed isSpace
      (id.toList ++ (afterId ++ '=' :: beforeAddress) ++ address.toList) :=
    hid.trimmed.append haddress.trimmed (toList_ne_nil hid.ne_empty)
      (toList_ne_nil haddress.ne_empty) _
  have hstrip : strip
      (before ++ id.toList ++ afterId ++ '=' :: beforeAddress ++ address.toList ++ after) =
      id.toList ++ afterId ++ '=' :: (beforeAddress ++ address.toList) := by
    have hpad := Text.strip_pad hbefore hafter hinner
    simpa [strip, List.append_assoc] using hpad
  have hequals : '=' ∉ id.toList ++ afterId := by
    rw [List.mem_append, not_or]
    exact ⟨hid.equals, notMem_of_blank (by decide) hafterId⟩
  have hwid : strip (id.toList ++ afterId) = id.toList :=
    Text.strip_pad hnil hafterId hid.trimmed
  have haddr : strip (beforeAddress ++ address.toList) = address.toList := by
    have hpad := Text.strip_pad hbeforeAddress hnil haddress.trimmed
    rwa [List.append_nil] at hpad
  unfold parseItem
  rw [hstrip, if_neg (by simp), Text.splitOnce_append hequals]
  simp only [hwid, haddr, String.ofList_toList]

theorem parseItem_bare (parsed : Dict String String) {id : String} (hid : WorkerId id)
    {before after : List Char} (hbefore : Blank before) (hafter : Blank after) :
    parseItem parsed (before ++ id.toList ++ after) = parsed.set id id := by
  have hstrip : strip (before ++ id.toList ++ after) = id.toList :=
    Text.strip_pad hbefore hafter hid.trimmed
  unfold parseItem
  rw [hstrip, if_neg (toList_ne_nil hid.ne_empty), Text.splitOnce_of_notMem hid.equals]
  simp only [String.ofList_toList]

/-- The loop, over a rendered list. -/
theorem foldl_parseItem {entries : List (String × String)} {items : List (List Char)}
    (h : Rendered entries items)
    (hentries : ∀ entry ∈ entries, WorkerId entry.1 ∧ Address entry.2)
    (parsed : Dict String String) :
    items.foldl parseItem parsed =
      entries.foldl (fun parsed entry => parsed.set entry.1 entry.2) parsed := by
  induction h generalizing parsed with
  | nil => rfl
  | blank hspace _ ih =>
      rw [List.foldl_cons, parseItem_blank parsed hspace]
      exact ih hentries parsed
  | entry hbefore hafterId hbeforeAddress hafter _ ih =>
      obtain ⟨hid, haddress⟩ := hentries _ List.mem_cons_self
      rw [List.foldl_cons, List.foldl_cons,
        parseItem_entry parsed hid haddress hbefore hafterId hbeforeAddress hafter]
      exact ih (fun entry hentry => hentries entry (List.mem_cons_of_mem _ hentry)) _
  | bare hbefore hafter _ ih =>
      obtain ⟨hid, _⟩ := hentries _ List.mem_cons_self
      rw [List.foldl_cons, List.foldl_cons, parseItem_bare parsed hid hbefore hafter]
      exact ih (fun entry hentry => hentries entry (List.mem_cons_of_mem _ hentry)) _

/-- No item has a comma in it. -/
theorem comma_notMem {entries : List (String × String)} {items : List (List Char)}
    (h : Rendered entries items)
    (hentries : ∀ entry ∈ entries, WorkerId entry.1 ∧ Address entry.2) :
    ∀ item ∈ items, ',' ∉ item := by
  have hcomma : isSpace ',' = false := by decide
  induction h with
  | nil => simp
  | blank hspace _ ih =>
      rw [List.forall_mem_cons]
      exact ⟨notMem_of_blank hcomma hspace, ih hentries⟩
  | entry hbefore hafterId hbeforeAddress hafter _ ih =>
      obtain ⟨hid, haddress⟩ := hentries _ List.mem_cons_self
      rw [List.forall_mem_cons]
      refine ⟨?_, ih fun entry hentry => hentries entry (List.mem_cons_of_mem _ hentry)⟩
      simp [notMem_of_blank hcomma hbefore, notMem_of_blank hcomma hafterId,
        notMem_of_blank hcomma hbeforeAddress, notMem_of_blank hcomma hafter, hid.comma,
        haddress.comma]
  | bare hbefore hafter _ ih =>
      obtain ⟨hid, _⟩ := hentries _ List.mem_cons_self
      rw [List.forall_mem_cons]
      refine ⟨?_, ih fun entry hentry => hentries entry (List.mem_cons_of_mem _ hentry)⟩
      simp [notMem_of_blank hcomma hbefore, notMem_of_blank hcomma hafter, hid.comma]

/-- What is read are the entries, in the order they were written. -/
theorem items_parseWorkers {entries : List (String × String)} {items : List (List Char)}
    (h : Rendered entries items)
    (hentries : ∀ entry ∈ entries, WorkerId entry.1 ∧ Address entry.2)
    (hnodup : (entries.map Prod.fst).Nodup) (hne : entries ≠ []) :
    (parseWorkers (render items)).items = entries := by
  have hitems : items ≠ [] := by
    rintro rfl
    cases h
    exact hne rfl
  have hsplit : ([','].intercalate items).splitOn ',' = items :=
    List.splitOn_intercalate ',' (comma_notMem h hentries) hitems
  rw [parseWorkers, render, String.toList_ofList, hsplit, foldl_parseItem h hentries]
  exact Dict.items_ofPairs hnodup

/-- **Every text of `WORKERS` is read as what it was written from.**  Whatever the order of
the entries, the blanks around ids and addresses and the blank items, the workers are
exactly the entries, and the registry has one node for each, which is starting. -/
theorem workers_round_trip (config : GatewayConfig) (hconfig : config.workers = [])
    (entries order : List (String × String)) (hne : entries ≠ [])
    (hentries : ∀ entry ∈ entries, WorkerId entry.1 ∧ Address entry.2)
    (hnodup : (entries.map Prod.fst).Nodup) (horder : order.Perm entries)
    (items : List (List Char)) (hitems : Rendered order items) :
    let parsed := config.postInit (render items)
    let registry := WorkerRegistry.ofConfig parsed
    parsed.workers = order ∧ parsed.workers.Perm entries ∧
      registry.ids.Perm (entries.map Prod.fst) ∧
      ∀ entry ∈ entries, registry.node entry.1 = { state := .starting, address := entry.2 } := by
  intro parsed registry
  have horderNe : order ≠ [] := fun hnil => hne (List.nil_perm.mp (hnil ▸ horder))
  have hread : (parseWorkers (render items)).items = order := by
    refine items_parseWorkers hitems (fun entry hentry => ?_) ?_ horderNe
    · exact hentries entry (horder.mem_iff.mp hentry)
    · exact (horder.map Prod.fst).nodup_iff.mpr hnodup
  have hraw : render items ≠ "" := by
    intro hempty
    rw [hempty] at hread
    exact horderNe hread.symm
  have hworkers : parsed.workers = order := by
    change (config.postInit (render items)).workers = order
    rw [GatewayConfig.postInit, if_pos ⟨hconfig, hraw⟩]
    exact hread
  refine ⟨hworkers, hworkers ▸ horder, ?_, fun entry hentry => ?_⟩
  · change (parsed.workers.map Prod.fst).Perm _
    rw [hworkers]
    exact horder.map Prod.fst
  · have hlookup : parsed.workers.lookup entry.1 = some entry.2 := by
      rw [← Dict.mem_iff_lookup parsed.nodup, hworkers]
      exact horder.mem_iff.mpr hentry
    change ({ address := (parsed.workers.lookup entry.1).getD "" } : WorkerNode) = _
    rw [hlookup, Option.getD_some]

/-- Two workers; the address of the second has an equals sign in it. -/
def twoWorkers : List (String × String) := [("w1", "w1:50051"), ("w2", "dns:host?a=b")]

theorem rendered_twoWorkers : Rendered twoWorkers.reverse
    [" ".toList, "\tw2 = dns:host?a=b ".toList, [], "w1=w1:50051\n".toList] :=
  .blank (by decide) (@Rendered.entry _ _ "w2" "dns:host?a=b" ['\t'] [' '] [' '] [' ']
    (by decide) (by decide) (by decide) (by decide)
    (.blank (by decide) (@Rendered.entry _ _ "w1" "w1:50051" [] [] [] ['\n']
      (by decide) (by decide) (by decide) (by decide) .nil)))

theorem workers_round_trip_two :
    (GatewayConfig.postInit { workers := [] } " ,\tw2 = dns:host?a=b ,,w1=w1:50051\n").workers =
      twoWorkers.reverse := by
  have hvalid : ∀ entry ∈ twoWorkers, WorkerId entry.1 ∧ Address entry.2 := by
    simp only [twoWorkers, List.forall_mem_cons]
    refine ⟨⟨?_, ?_⟩, ⟨?_, ?_⟩, by simp⟩
    all_goals constructor <;> decide
  exact (workers_round_trip { workers := [] } rfl twoWorkers twoWorkers.reverse (by decide) hvalid
    (by decide) (List.reverse_perm _) _ rendered_twoWorkers).1

example : (parseWorkers ("worker-1=worker-1:50051,worker-2=worker-2:50051," ++
    "worker-3=worker-3:50051,worker-4=worker-4:50051")).items = defaultWorkers := by
  decide +kernel

end ModelServer

import AmaExecutionCore.JsonKeys
import AmaExecutionCore.ShortestDecimals
import Mathlib.Data.Set.Function

/-! `normalize_execute_signal_request` and `fingerprint_signal_request`: two requests have one
fingerprint exactly when they ask for the same trade. -/
namespace AmaExecutionCore.SignalIdempotency

open Decimals Binary64

section Texts

/-- Upper case as the Unicode tables give it, one character after the other: it has no space
where there was none, and it is its own upper case. -/
structure CaseTable where
  upper : Char → List Char
  upper_ne : ∀ c, upper c ≠ []
  upper_upper : ∀ c, ∀ d ∈ upper c, upper d = [d]
  isSpace_upper : ∀ c, isSpace c = false → ∀ d ∈ upper c, isSpace d = false

def CaseTable.upperText (table : CaseTable) (text : List Char) : List Char :=
  text.flatMap table.upper

/-- No space at either end. -/
def Trimmed (text : List Char) : Prop :=
  (∀ c ∈ text.head?, isSpace c = false) ∧ ∀ c ∈ text.getLast?, isSpace c = false

variable {text : List Char} {table : CaseTable}

theorem trimmed_strip (text : List Char) : Trimmed (strip text) := by
  constructor
  · intro c hc
    obtain ⟨rest, hrest⟩ := List.rdropWhile_prefix isSpace (text.dropWhile isSpace)
    have hfirst : (text.dropWhile isSpace).head? = some c := by
      rw [← hrest, List.head?_append]
      rw [Option.mem_def, strip] at hc
      rw [hc, Option.some_or]
    have hnot := List.head?_dropWhile_not isSpace text
    rwa [hfirst] at hnot
  · intro c hc
    obtain ⟨hne, hlast⟩ := List.mem_getLast?_eq_getLast hc
    have hnot := List.rdropWhile_last_not isSpace (text.dropWhile isSpace) hne
    rw [hlast]
    exact Bool.eq_false_of_not_eq_true hnot

theorem strip_of_trimmed (h : Trimmed text) : strip text = text := by
  have hfront : text.dropWhile isSpace = text := by
    cases text with
    | nil => rfl
    | cons c rest => rw [List.dropWhile_cons_of_neg (Bool.not_eq_true _ ▸ h.1 c rfl)]
  rw [strip, hfront]
  apply List.rdropWhile_eq_self_iff.mpr
  intro hne hspace
  rw [h.2 _ (List.getLast?_eq_some_getLast hne)] at hspace
  cases hspace

theorem trimmed_upperText (h : Trimmed text) : Trimmed (table.upperText text) := by
  constructor
  · cases text with
    | nil => exact fun d hd => absurd hd (by simp [CaseTable.upperText])
    | cons c rest =>
      intro d hd
      have hfirst : d ∈ table.upper c := by
        rw [CaseTable.upperText, List.flatMap_cons, List.head?_append,
          List.head?_eq_some_head (table.upper_ne c), Option.some_or, Option.mem_some] at hd
        exact hd ▸ List.head_mem _
      exact table.isSpace_upper c (h.1 c rfl) d hfirst
  · obtain rfl | ⟨rest, c, rfl⟩ := List.eq_nil_or_concat text
    · exact fun d hd => absurd hd (by simp [CaseTable.upperText])
    · intro d hd
      have hlast : d ∈ table.upper c := by
        rw [CaseTable.upperText, List.concat_eq_append, List.flatMap_append, List.flatMap_singleton,
          List.getLast?_append, List.getLast?_eq_some_getLast (table.upper_ne c), Option.some_or,
          Option.mem_some] at hd
        exact hd ▸ List.getLast_mem _
      exact table.isSpace_upper c (h.2 c (by simp)) d hlast

theorem upperText_upperText (text : List Char) :
    table.upperText (table.upperText text) = table.upperText text := by
  rw [CaseTable.upperText, CaseTable.upperText, List.flatMap_assoc]
  apply List.flatMap_congr
  intro c _
  have hfixed : ∀ d ∈ table.upper c, table.upper d = [d] := table.upper_upper c
  rw [List.flatMap_congr hfixed, List.flatMap_singleton']

theorem asciiUpper_letter : ∀ letter < 26, asciiUpper (Char.ofNat (65 + letter)) =
    Char.ofNat (65 + letter) ∧ isSpace (Char.ofNat (65 + letter)) = false := by
  decide

def asciiTable : CaseTable where
  upper c := [asciiUpper c]
  upper_ne _ := List.cons_ne_nil _ _
  upper_upper c d hd := by
    rw [List.mem_singleton] at hd
    by_cases hletter : 97 ≤ c.toNat ∧ c.toNat < 97 + 26
    · rw [asciiUpper, if_pos hletter] at hd
      rw [hd, (asciiUpper_letter (c.toNat - 97) (by omega)).1]
    · rw [asciiUpper, if_neg hletter] at hd
      rw [hd, asciiUpper, if_neg hletter]
  isSpace_upper c hc d hd := by
    rw [List.mem_singleton] at hd
    by_cases hletter : 97 ≤ c.toNat ∧ c.toNat < 97 + 26
    · rw [asciiUpper, if_pos hletter] at hd
      rw [hd, (asciiUpper_letter (c.toNat - 97) (by omega)).2]
    · rw [asciiUpper, if_neg hletter] at hd
      rw [hd, hc]

end Texts

/-- `ExecuteSignalRequest`, with any JSON object as the snapshot and finite prices. -/
structure SignalPayload where
  symbol : String
  direction : SignalDirection
  entry : Double
  stop : Double
  target : Double
  reason : Option String := none
  strategyVersion : Option String := none
  indicatorsSnapshot : Option Payload := none
  keys_distinct : ∀ fields ∈ indicatorsSnapshot, (Json.dict fields).DistinctKeys

structure NormalizedExecuteSignalRequest where
  symbol : String
  direction : SignalDirection
  entry : Double
  stop : Double
  target : Double
  reason : Option String
  strategyVersion : Option String
  indicatorsSnapshot : Option Payload
  keys_distinct : ∀ fields ∈ indicatorsSnapshot, (Json.dict fields).DistinctKeys

def NormalizedExecuteSignalRequest.toPayload (request : NormalizedExecuteSignalRequest) :
    SignalPayload where
  symbol := request.symbol
  direction := request.direction
  entry := request.entry
  stop := request.stop
  target := request.target
  reason := request.reason
  strategyVersion := request.strategyVersion
  indicatorsSnapshot := request.indicatorsSnapshot
  keys_distinct := request.keys_distinct

section Normalizing

def normalizeOptionalText (value : Option String) : Option String :=
  match value with
  | none => none
  | some text =>
    let stripped := strip text.toList
    if stripped = [] then none else some (String.ofList stripped)

def normalizeDecimal (value : Double) : Decimal := (ofDouble value.value).normalize

def normalizeExecuteSignalRequest (table : CaseTable) (payload : SignalPayload) :
    NormalizedExecuteSignalRequest where
  symbol := String.ofList (table.upperText (strip payload.symbol.toList))
  direction := payload.direction
  entry := Double.round (normalizeDecimal payload.entry).value
  stop := Double.round (normalizeDecimal payload.stop).value
  target := Double.round (normalizeDecimal payload.target).value
  reason := normalizeOptionalText payload.reason
  strategyVersion := normalizeOptionalText payload.strategyVersion
  indicatorsSnapshot := payload.indicatorsSnapshot
  keys_distinct := payload.keys_distinct

def decimalToString (value : Double) : Except PyError String :=
  let normalized := normalizeDecimal value
  if normalized.value = normalized.toIntegral.value then
    match normalized.quantizeOne with
    | none => .error .invalidOperation
    | some whole => .ok (String.ofList whole.unitText)
  else .ok (String.ofList (rstrip '.' (rstrip '0' normalized.fixedText)))

variable {x y : Double}

theorem normalizeOptionalText_twice (value : Option String) :
    normalizeOptionalText (normalizeOptionalText value) = normalizeOptionalText value := by
  cases value with
  | none => rfl
  | some text =>
    have hstripped := strip_of_trimmed (trimmed_strip text.toList)
    by_cases hblank : strip text.toList = []
    · rw [normalizeOptionalText]
      rw [if_pos hblank]
      rfl
    · rw [normalizeOptionalText]
      rw [if_neg hblank, normalizeOptionalText]
      rw [String.toList_ofList, hstripped, if_neg hblank]

theorem normalizeDecimal_value (hx : 0 < x.value) :
    (normalizeDecimal x).value = (ofDouble x.value).value :=
  Decimal.value_normalize (coefficient_ofDouble_lt hx x.nearest_eq)

theorem nearest_normalizeDecimal (hx : 0 < x.value) :
    nearest (normalizeDecimal x).value = x.value := by
  rw [normalizeDecimal_value hx]
  exact nearest_ofDouble hx x.nearest_eq

theorem round_normalizeDecimal (hx : 0 < x.value) :
    Double.round (normalizeDecimal x).value = x :=
  Double.ext (nearest_normalizeDecimal hx)

/-- The text of a decimal denotes the decimal, in the whole and in the fractional branch. -/
theorem decimalToString_reads (hx : (normalizeDecimal x).value < 10 ^ precision) :
    ∃ text, decimalToString x = .ok text ∧
      readText text.toList = (normalizeDecimal x).value := by
  rw [decimalToString]
  by_cases hwhole : (normalizeDecimal x).value = (normalizeDecimal x).toIntegral.value
  · obtain ⟨n, hn⟩ := Decimal.exists_natCast hwhole
    have hlt : n < 10 ^ precision := by
      rw [hn] at hx
      exact_mod_cast hx
    rw [if_pos hwhole, Decimal.quantizeOne_natCast hn hlt]
    refine ⟨_, rfl, ?_⟩
    rw [String.toList_ofList, hn]
    exact readText_toDigits n
  · have hexponent : (normalizeDecimal x).exponent < 0 := by
      by_contra hnonneg
      exact hwhole (Decimal.toIntegral_value_of_nonneg (not_lt.mp hnonneg)).symm
    rw [if_neg hwhole]
    refine ⟨_, rfl, ?_⟩
    rw [String.toList_ofList]
    exact readText_fixedText hexponent

/-- Below the double next to `10 ^ 28` the decimals fit into the context. -/
theorem normalizeDecimal_lt (hx : 0 < x.value) (hlt : x.value < nearest (10 ^ 28)) :
    (normalizeDecimal x).value < 10 ^ precision := by
  by_contra hle
  have hmono := nearest_mono (by positivity) (not_lt.mp hle)
  rw [nearest_normalizeDecimal hx] at hmono
  exact absurd hlt (not_lt.mpr hmono)

theorem decimalToString_inj (hx : 0 < x.value) (hy : 0 < y.value) {text : String}
    (htext : decimalToString x = .ok text) (htext' : decimalToString y = .ok text)
    (hxlt : x.value < nearest (10 ^ 28)) (hylt : y.value < nearest (10 ^ 28)) : x = y := by
  obtain ⟨textx, hokx, hreadx⟩ := decimalToString_reads (normalizeDecimal_lt hx hxlt)
  obtain ⟨texty, hoky, hready⟩ := decimalToString_reads (normalizeDecimal_lt hy hylt)
  cases htext.symm.trans hokx
  cases htext'.symm.trans hoky
  apply Double.ext
  rw [← nearest_normalizeDecimal hx, ← nearest_normalizeDecimal hy, ← hreadx, ← hready]

end Normalizing

section Fingerprint

/-- The text that `json.dumps` gives a value whose keys are sorted, and `hashlib.sha256`. -/
structure SignalHash where
  dumps : Json → String
  sha256 : String → String

def textJson (value : Option String) : Json := value.elim .null .str

def snapshotJson (value : Option Payload) : Json := value.elim .null .dict

def directionText : SignalDirection → String
  | .long => "long"
  | .short => "short"

/-- The fields of `canonical_payload`, with the texts of the prices. -/
def canonicalFields (payload : NormalizedExecuteSignalRequest) (entry stop target : String) :
    Payload :=
  [ ("direction", .str (directionText payload.direction)),
    ("entry", .str entry),
    ("indicators_snapshot", snapshotJson payload.indicatorsSnapshot),
    ("reason", textJson payload.reason),
    ("stop", .str stop),
    ("strategy_version", textJson payload.strategyVersion),
    ("symbol", .str payload.symbol),
    ("target", .str target)]

/-- `canonical_payload` of `fingerprint_signal_request`. -/
def canonicalPayload (payload : NormalizedExecuteSignalRequest) : Except PyError Json := do
  let entry ← decimalToString payload.entry
  let stop ← decimalToString payload.stop
  let target ← decimalToString payload.target
  return .dict (canonicalFields payload entry stop target)

def fingerprintSignalRequest (hash : SignalHash) (payload : NormalizedExecuteSignalRequest) :
    Except PyError String := do
  let canonical ← canonicalPayload payload
  return hash.sha256 (hash.dumps canonical.sortKeys)

/-- What `json.dumps` is given for these requests. -/
def canonicalForms (table : CaseTable) (requests : Set SignalPayload) : Set Json :=
  {form | ∃ payload ∈ requests, ∃ canonical,
    canonicalPayload (normalizeExecuteSignalRequest table payload) = .ok canonical ∧
      form = canonical.sortKeys}

/-- Different values have different texts, and different texts of them different digests. -/
structure SignalHash.InjectiveOn (hash : SignalHash) (forms : Set Json) : Prop where
  dumps : Set.InjOn hash.dumps forms
  sha256 : Set.InjOn hash.sha256 (hash.dumps '' forms)

/-- The prices are positive, and below the double next to `10 ^ 28`. -/
structure SignalPayload.Priced (payload : SignalPayload) : Prop where
  entry : 0 < payload.entry.value ∧ payload.entry.value < nearest (10 ^ 28)
  stop : 0 < payload.stop.value ∧ payload.stop.value < nearest (10 ^ 28)
  target : 0 < payload.target.value ∧ payload.target.value < nearest (10 ^ 28)

/-- Two requests ask for the same trade. -/
structure SameSignal (table : CaseTable) (p q : SignalPayload) : Prop where
  symbol : table.upperText (strip p.symbol.toList) =
    table.upperText (strip q.symbol.toList)
  direction : p.direction = q.direction
  entry : p.entry.value = q.entry.value
  stop : p.stop.value = q.stop.value
  target : p.target.value = q.target.value
  reason : normalizeOptionalText p.reason = normalizeOptionalText q.reason
  strategyVersion : normalizeOptionalText p.strategyVersion =
    normalizeOptionalText q.strategyVersion
  snapshot : (snapshotJson p.indicatorsSnapshot).Same (snapshotJson q.indicatorsSnapshot)

variable {table : CaseTable} {hash : SignalHash} {p q : SignalPayload}

theorem textJson_same_iff (value value' : Option String) :
    (textJson value).Same (textJson value') ↔ value = value' := by
  cases value <;> cases value' <;> simp [textJson, Json.Same]

theorem textJson_distinctKeys (value : Option String) : (textJson value).DistinctKeys := by
  cases value <;> simp [textJson, Json.DistinctKeys]

theorem snapshotJson_distinctKeys {value : Option Payload}
    (h : ∀ fields ∈ value, (Json.dict fields).DistinctKeys) :
    (snapshotJson value).DistinctKeys := by
  cases value with
  | none => simp [snapshotJson, Json.DistinctKeys]
  | some fields => exact h fields rfl

theorem directionText_inj {direction direction' : SignalDirection} :
    directionText direction = directionText direction' ↔ direction = direction' := by
  cases direction <;> cases direction' <;> decide

theorem canonicalFields_keys (payload : NormalizedExecuteSignalRequest)
    (entry stop target : String) : ((canonicalFields payload entry stop target).map Prod.fst) =
      ["direction", "entry", "indicators_snapshot", "reason", "stop", "strategy_version",
        "symbol", "target"] := rfl

theorem canonicalFields_distinctKeys (payload : NormalizedExecuteSignalRequest)
    (entry stop target : String) :
    (Json.dict (canonicalFields payload entry stop target)).DistinctKeys := by
  have hsnapshot := snapshotJson_distinctKeys payload.keys_distinct
  have hreason := textJson_distinctKeys payload.reason
  have hversion := textJson_distinctKeys payload.strategyVersion
  refine ⟨?_, trivial, trivial, hsnapshot, hreason, trivial, hversion, trivial, trivial, trivial⟩
  rw [canonicalFields_keys]
  decide

/-- The fields have different keys, so each is compared with its namesake. -/
theorem canonicalFields_same_iff {payload payload' : NormalizedExecuteSignalRequest}
    {entry stop target entry' stop' target' : String} :
    (Json.dict (canonicalFields payload entry stop target)).Same
        (.dict (canonicalFields payload' entry' stop' target')) ↔
      payload.direction = payload'.direction ∧ entry = entry' ∧
        (snapshotJson payload.indicatorsSnapshot).Same
          (snapshotJson payload'.indicatorsSnapshot) ∧
        payload.reason = payload'.reason ∧ stop = stop' ∧
        payload.strategyVersion = payload'.strategyVersion ∧
        payload.symbol = payload'.symbol ∧ target = target' := by
  have hkeys := (canonicalFields_distinctKeys payload' entry' stop' target').1
  have hsame : (canonicalFields payload entry stop target).map Prod.fst =
    (canonicalFields payload' entry' stop' target').map Prod.fst := rfl
  rw [Json.Same, fieldsIn_iff_forall₂ hkeys (List.Subset.refl _) hsame]
  simp [canonicalFields, Json.Same, textJson_same_iff, directionText_inj]

theorem canonicalPayload_normalized (table : CaseTable) (hp : p.Priced) : ∃ entry stop target,
    decimalToString p.entry = .ok entry ∧ decimalToString p.stop = .ok stop ∧
      decimalToString p.target = .ok target ∧
      canonicalPayload (normalizeExecuteSignalRequest table p) =
        .ok (.dict
          (canonicalFields (normalizeExecuteSignalRequest table p) entry stop target)) := by
  obtain ⟨entry, hentry, -⟩ := decimalToString_reads (normalizeDecimal_lt hp.entry.1 hp.entry.2)
  obtain ⟨stop, hstop, -⟩ := decimalToString_reads (normalizeDecimal_lt hp.stop.1 hp.stop.2)
  obtain ⟨target, htarget, -⟩ :=
    decimalToString_reads (normalizeDecimal_lt hp.target.1 hp.target.2)
  refine ⟨entry, stop, target, hentry, hstop, htarget, ?_⟩
  rw [canonicalPayload, normalizeExecuteSignalRequest]
  dsimp only
  rw [round_normalizeDecimal hp.entry.1, round_normalizeDecimal hp.stop.1,
    round_normalizeDecimal hp.target.1, hentry, hstop, htarget]
  rfl

/-- Equal texts are those of equal prices. -/
theorem decimalToString_eq_iff {x y : Double} {text text' : String}
    (hx : 0 < x.value ∧ x.value < nearest (10 ^ 28))
    (hy : 0 < y.value ∧ y.value < nearest (10 ^ 28)) (htext : decimalToString x = .ok text)
    (htext' : decimalToString y = .ok text') : text = text' ↔ x.value = y.value := by
  constructor
  · rintro rfl
    rw [decimalToString_inj hx.1 hy.1 htext htext' hx.2 hy.2]
  · intro hvalue
    cases Double.ext hvalue
    cases htext.symm.trans htext'
    rfl

/-- Normalizing what is normalized changes nothing. -/
theorem normalizeExecuteSignalRequest_twice (hp : p.Priced) :
    normalizeExecuteSignalRequest table (normalizeExecuteSignalRequest table p).toPayload =
      normalizeExecuteSignalRequest table p := by
  have htrimmed : Trimmed (table.upperText (strip p.symbol.toList)) :=
    trimmed_upperText (trimmed_strip p.symbol.toList)
  have hsymbol := strip_of_trimmed htrimmed
  simp only [normalizeExecuteSignalRequest, NormalizedExecuteSignalRequest.toPayload,
    round_normalizeDecimal hp.entry.1, round_normalizeDecimal hp.stop.1,
    round_normalizeDecimal hp.target.1, normalizeOptionalText_twice, String.toList_ofList, hsymbol,
    upperText_upperText]

theorem fingerprintSignalRequest_eq_iff {requests : Set SignalPayload}
    (hinjective : hash.InjectiveOn (canonicalForms table requests)) (hp : p ∈ requests)
    (hq : q ∈ requests) (hpriced : p.Priced) (hpriced' : q.Priced) :
    ∃ fingerprint fingerprint',
      fingerprintSignalRequest hash (normalizeExecuteSignalRequest table p) = .ok fingerprint ∧
      fingerprintSignalRequest hash (normalizeExecuteSignalRequest table q) = .ok fingerprint' ∧
      (fingerprint = fingerprint' ↔ SameSignal table p q) := by
  obtain ⟨entry, stop, target, hentry, hstop, htarget, hcanonical⟩ :=
    canonicalPayload_normalized table hpriced
  obtain ⟨entry', stop', target', hentry', hstop', htarget', hcanonical'⟩ :=
    canonicalPayload_normalized table hpriced'
  have hform := show _ ∈ canonicalForms table requests from ⟨p, hp, _, hcanonical, rfl⟩
  have hform' := show _ ∈ canonicalForms table requests from ⟨q, hq, _, hcanonical', rfl⟩
  refine ⟨_, _, by rw [fingerprintSignalRequest, hcanonical]; rfl,
    by rw [fingerprintSignalRequest, hcanonical']; rfl, ?_⟩
  have hdigest := hinjective.sha256.eq_iff (Set.mem_image_of_mem _ hform)
    (Set.mem_image_of_mem _ hform')
  have htext := hinjective.dumps.eq_iff hform hform'
  have hsorted := Json.sortKeys_eq_iff
    (canonicalFields_distinctKeys (normalizeExecuteSignalRequest table p) entry stop target)
    (canonicalFields_distinctKeys (normalizeExecuteSignalRequest table q) entry' stop' target')
  rw [hdigest, htext, hsorted, canonicalFields_same_iff,
    decimalToString_eq_iff hpriced.entry hpriced'.entry hentry hentry',
    decimalToString_eq_iff hpriced.stop hpriced'.stop hstop hstop',
    decimalToString_eq_iff hpriced.target hpriced'.target htarget htarget']
  constructor
  · rintro ⟨hdirection, hentry, hsnapshot, hreason, hstop, hversion, hsymbol, htarget⟩
    exact ⟨String.ofList_injective hsymbol, hdirection, hentry, hstop, htarget, hreason, hversion,
      hsnapshot⟩
  · intro h
    exact ⟨h.direction, h.entry, h.snapshot, h.reason, h.stop, h.strategyVersion,
      congrArg String.ofList h.symbol, h.target⟩

/-- A request at a price, with a stop of 95 and a target of 110.25. -/
def signalAt (symbol : String) (entry : ℚ) (reason : Option String) : SignalPayload where
  symbol := symbol
  direction := .long
  entry := Double.round entry
  stop := Double.round 95
  target := Double.round (441 / 4)
  reason := reason
  indicatorsSnapshot := some [("rsi", .float (Number.ofRat (57 / 2)))]
  keys_distinct fields h := by
    cases h
    exact ⟨List.nodup_singleton _, trivial, trivial⟩

def symbolOf : Json → String
  | .dict fields =>
    match fields.lookup "symbol" with
    | some (.str symbol) => symbol
    | _ => ""
  | _ => ""

theorem symbolOf_sortKeys (payload : NormalizedExecuteSignalRequest)
    (entry stop target : String) :
    symbolOf (Json.dict (canonicalFields payload entry stop target)).sortKeys =
      payload.symbol := by
  have hkeys := (sortFields_keys _).trans (canonicalFields_keys payload entry stop target)
  have hascending : Paging.Ascending Prod.fst
      (sortFields (canonicalFields payload entry stop target)) := by
    rw [Paging.Ascending, ← List.pairwise_map, hkeys]
    decide +kernel
  rw [Json.sortKeys, Paging.sortBy_eq (List.Perm.refl _) hascending]
  rfl

def textOf (symbol : String) : String :=
  "\x7b\"direction\":\"long\",\"entry\":\"100.5\",\"indicators_snapshot\":" ++
    "\x7b\"rsi\":28.5\x7d,\"reason\":null,\"stop\":\"95\",\"strategy_version\":null," ++
    "\"symbol\":\"" ++ symbol ++ "\",\"target\":\"110.25\"\x7d"

/-- The texts and the digests of the two requests below. -/
def sampleHash : SignalHash where
  dumps form := textOf (symbolOf form)
  sha256 text :=
    if text = textOf "BTCUSDT" then
      "5b7f4e55f18b68bf8e43fc5de02e7afcec533d77d4b70dbff094bf4c0ccaf3bd"
    else "b98ece93c72498e9ff84e2dab9641bbfacc985db66cf93dc341b01e2b553e66d"

theorem sampleHash_injectiveOn (hpriced : p.Priced) (hpriced' : q.Priced)
    (hp : (normalizeExecuteSignalRequest table p).symbol = "BTCUSDT")
    (hq : (normalizeExecuteSignalRequest table q).symbol = "ETHUSDT") :
    sampleHash.InjectiveOn (canonicalForms table {p, q}) := by
  obtain ⟨entry, stop, target, -, -, -, hcanonical⟩ := canonicalPayload_normalized table hpriced
  obtain ⟨entry', stop', target', -, -, -, hcanonical'⟩ :=
    canonicalPayload_normalized table hpriced'
  have hforms : canonicalForms table {p, q} ⊆
      {(Json.dict (canonicalFields (normalizeExecuteSignalRequest table p) entry stop
          target)).sortKeys,
        (Json.dict (canonicalFields (normalizeExecuteSignalRequest table q) entry' stop'
          target')).sortKeys} := by
    rintro _ ⟨payload, rfl | rfl, canonical, hform, rfl⟩
    · cases hcanonical.symm.trans hform
      exact .inl rfl
    · cases hcanonical'.symm.trans hform
      exact .inr rfl
  have hdumps (payload : NormalizedExecuteSignalRequest) (entry stop target : String) :
      sampleHash.dumps (Json.dict (canonicalFields payload entry stop target)).sortKeys =
        textOf payload.symbol :=
    congrArg textOf (symbolOf_sortKeys payload entry stop target)
  have htexts : textOf "BTCUSDT" ≠ textOf "ETHUSDT" := by decide +kernel
  have hdigests : sampleHash.sha256 (textOf "BTCUSDT") ≠ sampleHash.sha256 (textOf "ETHUSDT") := by
    decide +kernel
  refine ⟨Set.InjOn.mono hforms ?_, Set.InjOn.mono (Set.image_mono hforms) ?_⟩
  · rw [Set.injOn_pair, hdumps, hdumps, hp, hq]
    exact fun heq => absurd heq htexts
  · rw [Set.image_pair, Set.injOn_pair, hdumps, hdumps, hp, hq]
    exact fun heq => absurd heq hdigests

/-- Requests without collisions have the same fingerprint when they ask for the same trade, and
normalizing twice is normalizing once. -/
theorem fingerprintSignalRequest_canonical {requests : Set SignalPayload}
    (hinjective : hash.InjectiveOn (canonicalForms table requests)) (hp : p ∈ requests)
    (hq : q ∈ requests) (hpriced : p.Priced) (hpriced' : q.Priced) :
    (∃ fingerprint fingerprint',
      fingerprintSignalRequest hash (normalizeExecuteSignalRequest table p) = .ok fingerprint ∧
      fingerprintSignalRequest hash (normalizeExecuteSignalRequest table q) = .ok fingerprint' ∧
      (fingerprint = fingerprint' ↔ SameSignal table p q)) ∧
    normalizeExecuteSignalRequest table (normalizeExecuteSignalRequest table p).toPayload =
      normalizeExecuteSignalRequest table p :=
  ⟨fingerprintSignalRequest_eq_iff hinjective hp hq hpriced hpriced',
    normalizeExecuteSignalRequest_twice hpriced⟩

theorem fingerprintSignalRequest_canonical_apart :
    (∃ fingerprint fingerprint',
      fingerprintSignalRequest sampleHash (normalizeExecuteSignalRequest asciiTable
        (signalAt " btcusdt" (201 / 2) (some " "))) = .ok fingerprint ∧
      fingerprintSignalRequest sampleHash (normalizeExecuteSignalRequest asciiTable
        (signalAt "ETHUSDT" (201 / 2) none)) = .ok fingerprint' ∧ fingerprint ≠ fingerprint') ∧
    normalizeExecuteSignalRequest asciiTable (normalizeExecuteSignalRequest asciiTable
        (signalAt " btcusdt" (201 / 2) (some " "))).toPayload =
      normalizeExecuteSignalRequest asciiTable (signalAt " btcusdt" (201 / 2) (some " ")) := by
  have hprices : ∀ price ∈ [201 / 2, 95, 441 / 4], 0 < (Double.round price).value ∧
    (Double.round price).value < nearest (10 ^ 28) := by decide +kernel
  have hpriced : ∀ symbol reason, (signalAt symbol (201 / 2) reason).Priced := fun _ _ =>
    ⟨hprices _ (by simp), hprices _ (by simp), hprices _ (by simp)⟩
  have hinjective : sampleHash.InjectiveOn (canonicalForms asciiTable
      {signalAt " btcusdt" (201 / 2) (some " "), signalAt "ETHUSDT" (201 / 2) none}) :=
    sampleHash_injectiveOn (hpriced _ _) (hpriced _ _) (by decide +kernel) (by decide +kernel)
  obtain ⟨⟨fingerprint, fingerprint', hfirst, hsecond, hsame⟩, htwice⟩ :=
    fingerprintSignalRequest_canonical hinjective (.inl rfl) (.inr rfl) (hpriced _ _) (hpriced _ _)
  refine ⟨⟨fingerprint, fingerprint', hfirst, hsecond, fun heq => ?_⟩, htwice⟩
  exact absurd (hsame.mp heq).symbol (by decide +kernel)

/-- The double next to `10 ^ 28` is below it, but its shortest decimal is not. -/
theorem fingerprintSignalRequest_dearest :
    (signalAt "BTCUSDT" (10 ^ 28) none).entry.value = 9999999999999999583119736832 ∧
      (signalAt "BTCUSDT" (10 ^ 28) none).entry.value < 10 ^ 28 ∧
      fingerprintSignalRequest sampleHash (normalizeExecuteSignalRequest asciiTable
        (signalAt "BTCUSDT" (10 ^ 28) none)) = .error .invalidOperation := by
  have hdecimal : normalizeDecimal (Double.round (10 ^ 28)) = ⟨1, 28⟩ := by decide +kernel
  have hround : Double.round (Decimal.value ⟨1, 28⟩) = Double.round (10 ^ 28) := by
    rw [Decimal.value]
    norm_num
  have hwhole : (⟨1, 28⟩ : Decimal).value = (⟨1, 28⟩ : Decimal).toIntegral.value := by
    decide +kernel
  have hquantize : (⟨1, 28⟩ : Decimal).quantizeOne = none := by decide +kernel
  have htext : decimalToString (Double.round (10 ^ 28)) = .error .invalidOperation := by
    rw [decimalToString, hdecimal, if_pos hwhole, hquantize]
  refine ⟨by decide +kernel, by decide +kernel, ?_⟩
  rw [fingerprintSignalRequest, canonicalPayload, normalizeExecuteSignalRequest, signalAt]
  dsimp only
  rw [hdecimal, hround, htext]
  rfl

end Fingerprint

end AmaExecutionCore.SignalIdempotency

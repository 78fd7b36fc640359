import Margo.Abt.Report
import Margo.Hg.Resources
import Margo.Monitor.Configuration

/-!
# The report of the Mercury section as its configuration

What `__margo_hg_to_json` reports of a class that margo made is a configuration that is
accepted and gives the same parameters again.

## Implementation notes

`Settings` is what the section can say: the texts of the strings, the two bits of the progress
mode, and the members that the version has. An authentication key that nobody gave may be added
on the way, since `auto_set_cxi_auth_key` is not called for an `hg_init_info` of the user, but
for the configuration in which it was reported.
-/

namespace Margo.Hg

open Lib Abt
open Abt.Report (check_seq forM_eq_ok assertConfigHasOptional_eq_ok
  configIsInEnumString_eq_ok)
open Monitor.Configuration (cString_cString)

/-- The parameters as far as the section tells them. -/
@[ext]
structure Settings where
  requestPostInit : BitVec 64
  requestPostIncr : BitVec 64
  autoSm : Bool
  noBulkEager : Bool
  noLoopback : Bool
  stats : Bool
  noBlock : Bool
  noRetry : Bool
  maxContexts : BitVec 64
  ipSubnet : Option String
  authKey : Option String
  logLevel : Option String
  logSubsys : Option String
  maxUnexpectedSize : Option (BitVec 64)
  maxExpectedSize : Option (BitVec 64)
  smInfoString : Option String
  requestMemDevice : Option Bool
  checksumLevel : Option ChecksumLevel
  addrFormat : Option AddrFormat
  deriving DecidableEq

/-- A value that some versions have. -/
def onlyIf {α : Type} (b : Bool) (a : α) : Option α := if b then some a else none

/-- The settings of a structure. -/
def MargoHg.settings (v : Version) (hg : MargoHg) : Settings where
  requestPostInit := hg.hgInitInfo.requestPostInit
  requestPostIncr := hg.hgInitInfo.requestPostIncr
  autoSm := hg.hgInitInfo.autoSm
  noBulkEager := hg.hgInitInfo.noBulkEager
  noLoopback := hg.hgInitInfo.noLoopback
  stats := hg.hgInitInfo.stats
  noBlock := hg.hgInitInfo.progressMode &&& naNoBlock ≠ 0
  noRetry := hg.hgInitInfo.progressMode &&& naNoRetry ≠ 0
  maxContexts := hg.hgInitInfo.maxContexts
  ipSubnet := hg.hgInitInfo.ipSubnet.map CStr.text
  authKey := hg.hgInitInfo.authKey.map CStr.text
  logLevel := hg.logLevel.map CStr.text
  logSubsys := hg.logSubsys.map CStr.text
  maxUnexpectedSize := onlyIf v.hasSizes hg.hgInitInfo.maxUnexpectedSize
  maxExpectedSize := onlyIf v.hasSizes hg.hgInitInfo.maxExpectedSize
  smInfoString := hg.hgInitInfo.smInfoString.map CStr.text
  requestMemDevice := onlyIf v.hasMemDevice hg.hgInitInfo.requestMemDevice
  checksumLevel := onlyIf v.hasMemDevice hg.hgInitInfo.checksumLevel
  addrFormat := onlyIf v.hasMemDevice hg.hgInitInfo.addrFormat

/-- The fields in which settings are reported. -/
def Settings.fields (s : Settings) : List (String × Option Json) :=
  [("request_post_init", newUint64 s.requestPostInit),
    ("request_post_incr", newUint64 s.requestPostIncr),
    ("auto_sm", newBoolean s.autoSm),
    ("no_bulk_eager", newBoolean s.noBulkEager),
    ("no_loopback", newBoolean s.noLoopback),
    ("stats", newBoolean s.stats),
    ("na_no_block", newBoolean s.noBlock),
    ("na_no_retry", newBoolean s.noRetry),
    ("max_contexts", newUint64 s.maxContexts),
    ("ip_subnet", s.ipSubnet.map .string),
    ("auth_key", s.authKey.map .string),
    ("log_level", s.logLevel.map .string),
    ("log_subsys", s.logSubsys.map .string),
    ("na_max_unexpected_size", s.maxUnexpectedSize.bind newUint64),
    ("na_max_expected_size", s.maxExpectedSize.bind newUint64),
    ("sm_info_string", s.smInfoString.map .string),
    ("na_request_mem_device", s.requestMemDevice.bind newBoolean),
    ("checksum_level", s.checksumLevel.map fun level => .string (checksumLevelStr level)),
    ("na_addr_format", s.addrFormat.map fun format => .string (naAddrFormatStr format))]

/-- A field with a string. -/
def stringField (json : Json) (key : String) : Option String :=
  if (json.get key).present then some (json.get key).getString else none

/-- The settings that a configuration asks for. -/
def readSettings (v : Version) (casts : Casts) (protocol : String) (slingshotVnis : Option String)
    (initializer : HgInitInfo) (json : Json) : Settings where
  requestPostInit := casts.requestPostInit.cast (getUint64Or json "request_post_init" 256)
  requestPostIncr := casts.requestPostIncr.cast (getUint64Or json "request_post_incr" 256)
  autoSm := getBoolOr json "auto_sm" false
  noBulkEager := getBoolOr json "no_bulk_eager" false
  noLoopback := getBoolOr json "no_loopback" false
  stats := getBoolOr json "stats" false
  noBlock := getBoolOr json "na_no_block" false
  noRetry := getBoolOr json "na_no_retry" false
  maxContexts := casts.maxContexts.cast (getUint64Or json "max_contexts" 0)
  ipSubnet := stringField json "ip_subnet"
  authKey := (stringField json "auth_key").or (autoSetCxiAuthKey protocol slingshotVnis)
  logLevel := some ((stringField json "log_level").getD "warning")
  logSubsys := some ((stringField json "log_subsys").getD "hg,na")
  maxUnexpectedSize := onlyIf v.hasSizes
    (casts.maxUnexpectedSize.cast (getUint64Or json "na_max_unexpected_size" 0))
  maxExpectedSize := onlyIf v.hasSizes
    (casts.maxExpectedSize.cast (getUint64Or json "na_max_expected_size" 0))
  smInfoString := stringField json "sm_info_string"
  requestMemDevice := onlyIf v.hasMemDevice (getBoolOr json "na_request_mem_device" false)
  checksumLevel := onlyIf v.hasMemDevice (readChecksumLevel json initializer.checksumLevel)
  addrFormat := onlyIf v.hasMemDevice (readAddrFormat json initializer.addrFormat)

variable {v : Version} {casts : Casts} {r : Replies} {json : Json} {user : UserArgs}
  {hg : MargoHg} {w w' : Ledger Kind} {initializer : HgInitInfo}

/-! ## Reports -/

theorem stringIf_eq (s : Option CStr) : stringIf s = (s.map CStr.text).map .string := by
  cases s with
  | none => rfl
  | some s => rfl

theorem bind_onlyIf {α β : Type} (b : Bool) (a : α) (f : α → Option β) :
    (onlyIf b a).bind f = if b then f a else none := by
  cases b with
  | false => rfl
  | true => rfl

theorem map_onlyIf {α β : Type} (b : Bool) (a : α) (f : α → β) :
    (onlyIf b a).map f = if b then some (f a) else none := by
  cases b with
  | false => rfl
  | true => rfl

/-- The report depends on the settings only. -/
theorem initInfoFields_eq (v : Version) (hg : MargoHg) :
    initInfoFields v hg = (hg.settings v).fields := by
  simp only [initInfoFields, Settings.fields, MargoHg.settings, stringIf_eq, bind_onlyIf,
    map_onlyIf]

theorem lookup_addFields {fields : List (String × Option Json)} (h : (fields.map Prod.fst).Nodup)
    {key : String} {value : Option Json} (hkey : fields.lookup key = some value) :
    (addFields fields).lookup key = value := by
  induction fields with
  | nil => cases hkey
  | cons f fields ih =>
      obtain ⟨hnot, hrest⟩ := List.nodup_cons.mp h
      rw [List.lookup_cons] at hkey
      cases heq : key == f.1 with
      | true =>
          obtain rfl := beq_iff_eq.mp heq
          rw [heq] at hkey
          obtain rfl := Option.some.inj hkey
          cases hvalue : f.2 with
          | none =>
              rw [addFields, List.filterMap_cons, hvalue]
              apply List.lookup_eq_none_iff.mpr
              intro e he
              obtain ⟨g, hg, hmap⟩ := List.mem_filterMap.mp he
              obtain ⟨j, -, rfl⟩ := Option.map_eq_some_iff.mp hmap
              have hne : f.1 ≠ g.1 := fun heq => hnot (heq ▸ List.mem_map_of_mem hg)
              simpa using hne
          | some j =>
              rw [addFields, List.filterMap_cons, hvalue]
              exact List.lookup_cons_self
      | false =>
          rw [heq] at hkey
          have hih := ih hrest hkey
          cases hvalue : f.2 with
          | none =>
              rw [addFields, List.filterMap_cons, hvalue]
              exact hih
          | some j =>
              rw [addFields, List.filterMap_cons, hvalue]
              change List.lookup key ((f.1, j) :: addFields fields) = value
              rw [List.lookup_cons, heq]
              exact hih

/-- The keys of the section. -/
def keys : List String :=
  ["version", "address", "listening", "input_eager_size", "output_eager_size",
    "request_post_init", "request_post_incr", "auto_sm", "no_bulk_eager", "no_loopback", "stats",
    "na_no_block", "na_no_retry", "max_contexts", "ip_subnet", "auth_key", "log_level",
    "log_subsys", "na_max_unexpected_size", "na_max_expected_size", "sm_info_string",
    "na_request_mem_device", "checksum_level", "na_addr_format"]

/-- A field of the report of a class that margo owns. -/
theorem get_hgToJson (howns : hg.ownsHgClass = true) (key : String) {value : Option Json}
    (hkey : (classFields r hg ++ (hg.settings v).fields).lookup key = some value) :
    (hgToJson v r hg).get key = value.getD .null := by
  have hkeys : (classFields r hg ++ (hg.settings v).fields).map Prod.fst = keys := rfl
  have hnodup : ((classFields r hg ++ (hg.settings v).fields).map Prod.fst).Nodup := by
    rw [hkeys]
    decide
  rw [hgToJson, Json.get, howns, if_pos rfl, initInfoFields_eq, lookup_addFields hnodup hkey]

/-! ## Reading fields -/

theorem getUint64Or_eq {key : String} {x d : BitVec 64}
    (h : json.get key = (newUint64 x).getD .null) : getUint64Or json key d = x := by
  have hmin : min (Int.ofNat x.toNat).toNat (2 ^ 64 - 1) = x.toNat := by
    have hlt := x.isLt
    rw [Int.ofNat_eq_natCast, Int.toNat_natCast]
    omega
  rw [getUint64Or, h]
  change BitVec.ofNat 64 (min (Int.ofNat x.toNat).toNat (2 ^ 64 - 1)) = x
  rw [hmin, BitVec.ofNat_toNat, BitVec.setWidth_eq]

theorem getBoolOr_eq {key : String} {b d : Bool}
    (h : json.get key = (newBoolean b).getD .null) : getBoolOr json key d = b := by
  rw [getBoolOr, h]
  rfl

/-- A C string has no NUL. -/
def IsCString (s : Option String) : Prop := ∀ text, s = some text → Json.cString text = text

theorem stringField_eq {key : String} {s : Option String} (hs : IsCString s)
    (h : json.get key = (s.map Json.string).getD .null) : stringField json key = s := by
  rw [stringField, h]
  cases s with
  | none => rfl
  | some text => exact congrArg some (hs text rfl)

theorem isCString_stringField (json : Json) (key : String) :
    IsCString (stringField json key) := by
  intro text h
  rw [stringField] at h
  split at h
  · rw [← Option.some.inj h]
    cases json.get key with
    | string s => exact cString_cString s
    | _ => rfl
  · cases h

theorem readChecksumLevel_eq {level d : ChecksumLevel}
    (h : json.get "checksum_level" = .string (checksumLevelStr level)) :
    readChecksumLevel json d = level := by
  rw [readChecksumLevel, h]
  cases level with
  | none => rfl
  | rpcHeaders => rfl
  | rpcPayload => rfl

theorem readAddrFormat_eq {format d : AddrFormat}
    (h : json.get "na_addr_format" = .string (naAddrFormatStr format)) :
    readAddrFormat json d = format := by
  rw [readAddrFormat, h]
  cases format with
  | unspec => rfl
  | ipv4 => rfl
  | ipv6 => rfl
  | native => rfl

/-! ## Reading a report -/

/-- The parameters have the types of their members. -/
structure HgInitInfo.Fits (v : Version) (casts : Casts) (info : HgInitInfo) : Prop where
  requestPostInit : casts.requestPostInit.cast info.requestPostInit = info.requestPostInit
  requestPostIncr : casts.requestPostIncr.cast info.requestPostIncr = info.requestPostIncr
  maxContexts : casts.maxContexts.cast info.maxContexts = info.maxContexts
  maxUnexpectedSize : v.hasSizes = true →
    casts.maxUnexpectedSize.cast info.maxUnexpectedSize = info.maxUnexpectedSize
  maxExpectedSize : v.hasSizes = true →
    casts.maxExpectedSize.cast info.maxExpectedSize = info.maxExpectedSize
  ipSubnet : IsCString (info.ipSubnet.map CStr.text)
  authKey : IsCString (info.authKey.map CStr.text)
  smInfoString : IsCString (info.smInfoString.map CStr.text)

/-- So has everything in the structure, and the log has a level and subsystems. -/
structure MargoHg.Fits (v : Version) (casts : Casts) (hg : MargoHg) : Prop where
  hgInitInfo : hg.hgInitInfo.Fits v casts
  logLevel : IsCString (hg.logLevel.map CStr.text)
  logSubsys : IsCString (hg.logSubsys.map CStr.text)
  level : hg.logLevel.isSome = true
  subsys : hg.logSubsys.isSome = true

theorem onlyIf_congr {α : Type} {b : Bool} {x y : α} (h : b = true → x = y) :
    onlyIf b x = onlyIf b y := by
  cases b with
  | false => rfl
  | true => exact congrArg some (h rfl)

theorem getD_map_text {s : Option CStr} (hs : s.isSome = true) (d : String) :
    some ((s.map CStr.text).getD d) = s.map CStr.text := by
  cases s with
  | none => cases hs
  | some s => rfl

/-- A report asks for the settings that it tells, and maybe for a key besides. -/
theorem readSettings_hgToJson (hfits : hg.Fits v casts) (howns : hg.ownsHgClass = true)
    (protocol : String) (slingshotVnis : Option String) :
    readSettings v casts protocol slingshotVnis initializer (hgToJson v r hg) =
      { hg.settings v with
        authKey := (hg.settings v).authKey.or (autoSetCxiAuthKey protocol slingshotVnis) } := by
  obtain ⟨hinfo, hlogLevel, hlogSubsys, hlevel, hsubsys⟩ := hfits
  have hstring (key : String) {s : Option CStr} (hs : IsCString (s.map CStr.text))
      (hkey : (classFields r hg ++ (hg.settings v).fields).lookup key =
        some ((s.map CStr.text).map .string)) :
      stringField (hgToJson v r hg) key = s.map CStr.text :=
    stringField_eq hs (get_hgToJson howns key hkey)
  rw [readSettings]
  ext1
  · rw [getUint64Or_eq (get_hgToJson howns "request_post_init" rfl)]
    exact hinfo.requestPostInit
  · rw [getUint64Or_eq (get_hgToJson howns "request_post_incr" rfl)]
    exact hinfo.requestPostIncr
  · exact getBoolOr_eq (get_hgToJson howns "auto_sm" rfl)
  · exact getBoolOr_eq (get_hgToJson howns "no_bulk_eager" rfl)
  · exact getBoolOr_eq (get_hgToJson howns "no_loopback" rfl)
  · exact getBoolOr_eq (get_hgToJson howns "stats" rfl)
  · exact getBoolOr_eq (get_hgToJson howns "na_no_block" rfl)
  · exact getBoolOr_eq (get_hgToJson howns "na_no_retry" rfl)
  · rw [getUint64Or_eq (get_hgToJson howns "max_contexts" rfl)]
    exact hinfo.maxContexts
  · exact hstring "ip_subnet" hinfo.ipSubnet rfl
  · dsimp only
    rw [hstring "auth_key" hinfo.authKey rfl]
    rfl
  · rw [hstring "log_level" hlogLevel rfl]
    exact getD_map_text hlevel _
  · rw [hstring "log_subsys" hlogSubsys rfl]
    exact getD_map_text hsubsys _
  · apply onlyIf_congr
    intro hsizes
    have hget := get_hgToJson (v := v) (r := r) howns "na_max_unexpected_size" rfl
    rw [MargoHg.settings, hsizes] at hget
    rw [getUint64Or_eq hget]
    exact hinfo.maxUnexpectedSize hsizes
  · apply onlyIf_congr
    intro hsizes
    have hget := get_hgToJson (v := v) (r := r) howns "na_max_expected_size" rfl
    rw [MargoHg.settings, hsizes] at hget
    rw [getUint64Or_eq hget]
    exact hinfo.maxExpectedSize hsizes
  · exact hstring "sm_info_string" hinfo.smInfoString rfl
  · apply onlyIf_congr
    intro hdevice
    have hget := get_hgToJson (v := v) (r := r) howns "na_request_mem_device" rfl
    rw [MargoHg.settings, hdevice] at hget
    exact getBoolOr_eq hget
  · apply onlyIf_congr
    intro hdevice
    have hget := get_hgToJson (v := v) (r := r) howns "checksum_level" rfl
    rw [MargoHg.settings, hdevice] at hget
    exact readChecksumLevel_eq hget
  · apply onlyIf_congr
    intro hdevice
    have hget := get_hgToJson (v := v) (r := r) howns "na_addr_format" rfl
    rw [MargoHg.settings, hdevice] at hget
    exact readAddrFormat_eq hget

/-! ## The report is valid -/

/-- A value of a type, or none. -/
def OfType (type : JsonType) (value : Option Json) : Prop :=
  ∀ j, value = some j → j.isType type = true

theorem ofType_text {α : Type} (o : Option α) (text : α → String) :
    OfType .string (o.map fun a => .string (text a)) := by
  intro j h
  obtain ⟨a, -, rfl⟩ := Option.map_eq_some_iff.mp h
  rfl

theorem ofType_string (s : Option String) : OfType .string (s.map .string) := ofType_text s id

theorem ofType_uint64 (x : BitVec 64) : OfType .int (newUint64 x) := by
  intro j h
  rw [← Option.some.inj h]
  rfl

theorem ofType_boolean (b : Bool) : OfType .boolean (newBoolean b) := by
  intro j h
  rw [← Option.some.inj h]
  rfl

theorem ofType_bind {α : Type} {type : JsonType} {f : α → Option Json} (o : Option α)
    (h : ∀ a, OfType type (f a)) : OfType type (o.bind f) := by
  intro j hj
  obtain ⟨a, -, hfa⟩ := Option.bind_eq_some_iff.mp hj
  exact h a j hfa

/-- A field of the report is there with its type, or not at all. -/
theorem assert_hgToJson (howns : hg.ownsHgClass = true) (key : String) {type : JsonType}
    {value : Option Json}
    (hkey : (classFields r hg ++ (hg.settings v).fields).lookup key = some value)
    (htype : OfType type value) :
    assertConfigHasOptional (hgToJson v r hg) key type "mercury" = .ok () := by
  apply assertConfigHasOptional_eq_ok
  rw [get_hgToJson howns key hkey]
  intro hpres
  cases value with
  | none => cases hpres
  | some j => exact htype j rfl

/-- A level or a format of the report is one of those that are allowed. -/
theorem assertEnum_hgToJson (howns : hg.ownsHgClass = true) {α : Type} (key : String)
    {o : Option α} {text : α → String} {allowed : List String}
    (hkey : (classFields r hg ++ (hg.settings v).fields).lookup key =
      some (o.map fun a => .string (text a)))
    (hallowed : ∀ a, Json.cString (text a) ∈ allowed) :
    assertEnum (hgToJson v r hg) key allowed = .ok () := by
  rw [assertEnum]
  split
  · next hpres =>
      apply configIsInEnumString_eq_ok
      rw [get_hgToJson howns key hkey] at hpres ⊢
      cases o with
      | none => cases hpres
      | some a => exact hallowed a
  · rfl

theorem checksumLevelStr_mem (level : ChecksumLevel) :
    Json.cString (checksumLevelStr level) ∈ ["none", "rpc_headers", "rpc_payload"] := by
  cases level with
  | none => decide
  | rpcHeaders => decide
  | rpcPayload => decide

theorem naAddrFormatStr_mem (format : AddrFormat) :
    Json.cString (naAddrFormatStr format) ∈ ["unspec", "ipv4", "ipv4", "ipv6", "native"] := by
  cases format with
  | unspec => decide
  | ipv4 => decide
  | ipv6 => decide
  | native => decide

/-- The types of the fields of a report. -/
theorem assertFields_hgToJson (howns : hg.ownsHgClass = true) {fields : List (String × JsonType)}
    (h : ∀ f ∈ fields, ∃ value,
      (classFields r hg ++ (hg.settings v).fields).lookup f.1 = some value ∧ OfType f.2 value) :
    assertFields (hgToJson v r hg) fields = .ok () := by
  apply forM_eq_ok
  intro f hf
  obtain ⟨value, hkey, htype⟩ := h f hf
  exact assert_hgToJson howns f.1 hkey htype

theorem fieldTypes_hgToJson : ∀ f ∈ fieldTypes, ∃ value,
    (classFields r hg ++ (hg.settings v).fields).lookup f.1 = some value ∧
      OfType f.2 value := by
  simp only [fieldTypes, List.forall_mem_cons]
  refine ⟨?_, ?_, ?_, ?_, ?_, ?_, ?_, ?_, ?_, ?_, ?_, ?_, ?_, ?_, ?_, ?_, ?_, ?_, ?_⟩
  · exact ⟨_, rfl, stringIf_eq hg.selfAddrStr ▸ ofType_string _⟩
  · exact ⟨_, rfl, ofType_string (some r.version)⟩
  · exact ⟨_, rfl, ofType_boolean _⟩
  · exact ⟨_, rfl, ofType_uint64 _⟩
  · exact ⟨_, rfl, ofType_uint64 _⟩
  · exact ⟨_, rfl, ofType_boolean _⟩
  · exact ⟨_, rfl, ofType_boolean _⟩
  · exact ⟨_, rfl, ofType_boolean _⟩
  · exact ⟨_, rfl, ofType_boolean _⟩
  · exact ⟨_, rfl, ofType_boolean _⟩
  · exact ⟨_, rfl, ofType_boolean _⟩
  · exact ⟨_, rfl, ofType_uint64 _⟩
  · exact ⟨_, rfl, ofType_string _⟩
  · exact ⟨_, rfl, ofType_string _⟩
  · exact ⟨_, rfl, ofType_uint64 _⟩
  · exact ⟨_, rfl, ofType_uint64 _⟩
  · exact ⟨_, rfl, ofType_string _⟩
  · exact ⟨_, rfl, ofType_string _⟩
  · exact fun f hf => absurd hf List.not_mem_nil

/-- The report of a class that margo owns passes the checks. -/
theorem hgValidateJson_hgToJson (howns : hg.ownsHgClass = true) :
    hgValidateJson v (hgToJson v r hg) = .ok () := by
  have hcommon := assertFields_hgToJson howns (fieldTypes_hgToJson (v := v) (r := r))
  have hsizes : assertFields (hgToJson v r hg)
      [("na_max_unexpected_size", .int), ("na_max_expected_size", .int)] = .ok () := by
    apply assertFields_hgToJson howns
    simp only [List.forall_mem_cons]
    refine ⟨?_, ?_, ?_⟩
    · exact ⟨_, rfl, ofType_bind _ ofType_uint64⟩
    · exact ⟨_, rfl, ofType_bind _ ofType_uint64⟩
    · exact fun f hf => absurd hf List.not_mem_nil
  have hsmInfo : assertFields (hgToJson v r hg) [("sm_info_string", .string)] = .ok () := by
    apply assertFields_hgToJson howns
    intro f hf
    rw [List.mem_singleton.mp hf]
    exact ⟨_, rfl, ofType_string _⟩
  have hdevice : assertFields (hgToJson v r hg)
      [("na_request_mem_device", .boolean), ("checksum_level", .string)] = .ok () := by
    apply assertFields_hgToJson howns
    simp only [List.forall_mem_cons]
    refine ⟨?_, ?_, ?_⟩
    · exact ⟨_, rfl, ofType_bind _ ofType_boolean⟩
    · exact ⟨_, rfl, ofType_text _ checksumLevelStr⟩
    · exact fun f hf => absurd hf List.not_mem_nil
  have hformat : assertFields (hgToJson v r hg) [("na_addr_format", .string)] = .ok () := by
    apply assertFields_hgToJson howns
    intro f hf
    rw [List.mem_singleton.mp hf]
    exact ⟨_, rfl, ofType_text _ naAddrFormatStr⟩
  have hlast : assertEnum (hgToJson v r hg) "na_addr_format"
      ["unspec", "ipv4", "ipv4", "ipv6", "native"] = .ok () :=
    assertEnum_hgToJson howns "na_addr_format" rfl naAddrFormatStr_mem
  have hlevel : assertEnum (hgToJson v r hg) "checksum_level"
      ["none", "rpc_headers", "rpc_payload"] = .ok () :=
    assertEnum_hgToJson howns "checksum_level" rfl checksumLevelStr_mem
  have hobject : (!(hgToJson v r hg).isType .object) = false := rfl
  have hpresent : (!(hgToJson v r hg).present) = false := rfl
  rw [hgValidateJson, hpresent, hobject, if_neg Bool.false_ne_true, if_neg Bool.false_ne_true]
  cases v.hasSizes with
  | false =>
      cases v.hasMemDevice with
      | false => exact check_seq hcommon (check_seq hsmInfo rfl)
      | true =>
          exact check_seq hcommon (check_seq hsmInfo
            (check_seq hdevice (check_seq hlevel (check_seq hformat hlast))))
  | true =>
      cases v.hasMemDevice with
      | false => exact check_seq hcommon (check_seq hsizes (check_seq hsmInfo rfl))
      | true =>
          exact check_seq hcommon (check_seq hsizes (check_seq hsmInfo
            (check_seq hdevice (check_seq hlevel (check_seq hformat hlast)))))

/-! ## What an initialization leaves -/

theorem text_strdupIf (s : Option CStr) (w : Ledger Kind) :
    (strdupIf s w).1.map CStr.text = s.map CStr.text := by
  cases s with
  | none => rfl
  | some s => rfl

theorem text_strdupField (json : Json) (key : String) (w : Ledger Kind) :
    (strdupField json key w).1.map CStr.text = stringField json key := by
  rw [strdupField, stringField]
  split
  · rfl
  · rfl

theorem text_strdupDefault (s : Option CStr) (text : String) (w : Ledger Kind) :
    (strdupDefault s text w).1.map CStr.text = some ((s.map CStr.text).getD text) := by
  cases s with
  | none => rfl
  | some s => rfl

theorem text_readAuthKey (r : Replies) (json : Json) (protocol : String) (w : Ledger Kind) :
    (readAuthKey r json protocol w).1.map CStr.text =
      (stringField json "auth_key").or (autoSetCxiAuthKey protocol r.slingshotVnis) := by
  rw [readAuthKey, stringField]
  split
  · rfl
  · cases autoSetCxiAuthKey protocol r.slingshotVnis with
    | none => rfl
    | some key => rfl

/-- The parameters and the log of a structure. -/
def MargoHg.parameters (hg : MargoHg) : HgInitInfo × Option CStr × Option CStr :=
  (hg.hgInitInfo, hg.logLevel, hg.logSubsys)

theorem parameters_initClass (r : Replies) (user : UserArgs) (hg : MargoHg) (w : Ledger Kind) :
    (initClass r user hg w).2.1.parameters = hg.parameters := by
  rw [initClass]
  split
  · rfl
  · rw [makeClass]
    dsimp only
    split
    · rfl
    · rfl

theorem parameters_initContext (r : Replies) (user : UserArgs) (hg : MargoHg) (w : Ledger Kind) :
    (initContext r user hg w).2.1.parameters = hg.parameters := by
  rw [initContext]
  split
  · rfl
  · split
    · rfl
    · rfl

theorem parameters_initSelfAddr (r : Replies) (hg : MargoHg) (w : Ledger Kind) :
    (initSelfAddr r hg w).2.1.parameters = hg.parameters := by
  rw [initSelfAddr]
  split
  · rfl
  · dsimp only
    split
    · rfl
    · split
      · rfl
      · rfl

/-- A successful initialization keeps its parameters, and completes the log. -/
theorem hgInitFromJson_settings {hg₀ : MargoHg}
    (h : hgInitFromJson v casts r json user hg₀ w = (true, hg, w')) :
    ∃ hg₁ w₁, hg₁ = (initParameters v casts r json user hg₀ w).1 ∧
      hg.hgInitInfo = hg₁.hgInitInfo ∧
      hg.logLevel = (strdupDefault hg₁.logLevel "warning" w₁).1 ∧
      hg.logSubsys = (strdupDefault hg₁.logSubsys "hg,na"
        (strdupDefault hg₁.logLevel "warning" w₁).2).1 := by
  rw [hgInitFromJson] at h
  generalize initParameters v casts r json user hg₀ w = out at h ⊢
  obtain ⟨hg₁, w₁⟩ := out
  have hclass := parameters_initClass r user hg₁ w₁
  dsimp only at h
  generalize initClass r user hg₁ w₁ = out at h hclass
  obtain ⟨done, hg₂, w₂⟩ := out
  cases done with
  | false => cases h
  | true =>
      have hcontext := parameters_initContext r user hg₂ w₂
      simp only [Bool.not_true, Bool.false_eq_true, if_false] at h
      generalize initContext r user hg₂ w₂ = out at h hcontext
      obtain ⟨done, hg₃, w₃⟩ := out
      cases done with
      | false => cases h
      | true =>
          have haddr := parameters_initSelfAddr r hg₃ w₃
          simp only [Bool.not_true, Bool.false_eq_true, if_false, initRest] at h
          generalize initSelfAddr r hg₃ w₃ = out at h haddr
          obtain ⟨done, hg₄, w₄⟩ := out
          cases done with
          | false => cases h
          | true =>
              have hall : hg₄.parameters = hg₁.parameters :=
                haddr.trans (hcontext.trans hclass)
              obtain ⟨hinfo, hlog⟩ := Prod.mk.inj hall
              obtain ⟨hlevel, hsubsys⟩ := Prod.mk.inj hlog
              obtain ⟨-, hrest⟩ := Prod.mk.inj h
              obtain ⟨rfl, -⟩ := Prod.mk.inj hrest
              refine ⟨hg₁, w₄, rfl, hinfo, ?_, ?_⟩
              · rw [← hlevel]
                rfl
              · rw [← hlevel, ← hsubsys]
                rfl

theorem progressMode_noBlock : ∀ noBlock noRetry,
    decide (progressMode noBlock noRetry &&& naNoBlock ≠ 0) = noBlock := by
  decide

theorem progressMode_noRetry : ∀ noBlock noRetry,
    decide (progressMode noBlock noRetry &&& naNoRetry ≠ 0) = noRetry := by
  decide

/-- The parameters of a configuration are those for which it asks, before the log is
completed. -/
theorem settings_readJson (v : Version) (casts : Casts) (r : Replies) (json : Json)
    (protocol : String) (initializer : HgInitInfo) (w : Ledger Kind) :
    { (readJson v casts r json protocol (.initial initializer) w).1.settings v with
        logLevel := some ((stringField json "log_level").getD "warning")
        logSubsys := some ((stringField json "log_subsys").getD "hg,na") } =
      readSettings v casts protocol r.slingshotVnis initializer json := by
  rw [readSettings]
  ext1
  · rfl
  · rfl
  · rfl
  · rfl
  · rfl
  · rfl
  · exact progressMode_noBlock _ _
  · exact progressMode_noRetry _ _
  · rfl
  · exact text_strdupField json "ip_subnet" w
  · exact text_readAuthKey r json protocol _
  · rfl
  · rfl
  · exact onlyIf_congr fun hsizes => if_pos hsizes
  · exact onlyIf_congr fun hsizes => if_pos hsizes
  · exact text_strdupField json "sm_info_string" _
  · exact onlyIf_congr fun hdevice => if_pos hdevice
  · exact onlyIf_congr fun hdevice => if_pos hdevice
  · exact onlyIf_congr fun hdevice => if_pos hdevice

theorem isCString_autoSetCxiAuthKey (protocol : String) (slingshotVnis : Option String) :
    IsCString (autoSetCxiAuthKey protocol slingshotVnis) := by
  intro text h
  unfold autoSetCxiAuthKey at h
  split at h
  · cases h
  · split at h
    · cases h
    · split at h
      · rw [← Option.some.inj h]
        rfl
      · cases h

theorem fits_readJson (v : Version) (casts : Casts) (r : Replies) (json : Json)
    (protocol : String) (initializer : HgInitInfo) (w : Ledger Kind) :
    (readJson v casts r json protocol (.initial initializer) w).1.hgInitInfo.Fits v casts where
  requestPostInit := casts.requestPostInit.cast_cast _
  requestPostIncr := casts.requestPostIncr.cast_cast _
  maxContexts := casts.maxContexts.cast_cast _
  maxUnexpectedSize hsizes := by
    change casts.maxUnexpectedSize.cast (if v.hasSizes then _ else _) =
      if v.hasSizes then _ else _
    rw [if_pos hsizes]
    exact casts.maxUnexpectedSize.cast_cast _
  maxExpectedSize hsizes := by
    change casts.maxExpectedSize.cast (if v.hasSizes then _ else _) =
      if v.hasSizes then _ else _
    rw [if_pos hsizes]
    exact casts.maxExpectedSize.cast_cast _
  ipSubnet := by
    change IsCString ((strdupField json "ip_subnet" w).1.map CStr.text)
    rw [text_strdupField]
    exact isCString_stringField json "ip_subnet"
  authKey := by
    change IsCString ((readAuthKey r json protocol _).1.map CStr.text)
    rw [text_readAuthKey]
    intro text h
    rcases Option.or_eq_some_iff.mp h with hfield | ⟨-, hauto⟩
    · exact isCString_stringField json "auth_key" text hfield
    · exact isCString_autoSetCxiAuthKey protocol r.slingshotVnis text hauto
  smInfoString := by
    change IsCString ((strdupField json "sm_info_string" _).1.map CStr.text)
    rw [text_strdupField]
    exact isCString_stringField json "sm_info_string"

theorem fits_copyInitInfo {info : HgInitInfo} (h : info.Fits v casts) (initializer : HgInitInfo)
    (w : Ledger Kind) :
    (copyInitInfo info (.initial initializer) w).1.hgInitInfo.Fits v casts where
  requestPostInit := h.requestPostInit
  requestPostIncr := h.requestPostIncr
  maxContexts := h.maxContexts
  maxUnexpectedSize := h.maxUnexpectedSize
  maxExpectedSize := h.maxExpectedSize
  ipSubnet := by
    change IsCString ((strdupIf info.ipSubnet _).1.map CStr.text)
    rw [text_strdupIf]
    exact h.ipSubnet
  authKey := by
    change IsCString ((strdupIf info.authKey _).1.map CStr.text)
    rw [text_strdupIf]
    exact h.authKey
  smInfoString := by
    change IsCString ((strdupIf info.smInfoString w).1.map CStr.text)
    rw [text_strdupIf]
    exact h.smInfoString

/-! ## There and back -/

theorem initParameters_json (hjson : user.hgInitInfo = none ∨ user.hgClass ≠ none) (hg : MargoHg)
    (w : Ledger Kind) :
    initParameters v casts r json user hg w = readJson v casts r json user.protocol hg w := by
  rw [initParameters]
  split
  · next hinfo hclass =>
      rcases hjson with hnone | hsome
      · rw [hnone] at hinfo
        cases hinfo
      · exact absurd hclass hsome
  · rfl

/-- A configuration gives the settings for which it asks. -/
theorem settings_eq (hjson : user.hgInitInfo = none ∨ user.hgClass ≠ none)
    (h : hgInitFromJson v casts r json user (.initial initializer) w = (true, hg, w')) :
    hg.settings v =
      readSettings v casts user.protocol r.slingshotVnis initializer json := by
  obtain ⟨hg₁, w₁, hhg₁, hinfo, hlevel, hsubsys⟩ := hgInitFromJson_settings h
  rw [initParameters_json hjson] at hhg₁
  have hlevel₁ : hg₁.logLevel.map CStr.text = stringField json "log_level" := by
    rw [hhg₁]
    exact text_strdupField json "log_level" _
  have hsubsys₁ : hg₁.logSubsys.map CStr.text = stringField json "log_subsys" := by
    rw [hhg₁]
    exact text_strdupField json "log_subsys" _
  rw [← settings_readJson v casts r json user.protocol initializer w, ← hhg₁, MargoHg.settings,
    MargoHg.settings, hinfo, hlevel, hsubsys, text_strdupDefault, text_strdupDefault, hlevel₁,
    hsubsys₁]

/-- What an initialization leaves fits. -/
theorem fits_hgInitFromJson (huser : ∀ info, user.hgInitInfo = some info → info.Fits v casts)
    (h : hgInitFromJson v casts r json user (.initial initializer) w = (true, hg, w')) :
    hg.Fits v casts := by
  obtain ⟨hg₁, w₁, hhg₁, hinfo, hlevel, hsubsys⟩ := hgInitFromJson_settings h
  have hfits : hg₁.hgInitInfo.Fits v casts ∧ IsCString (hg₁.logLevel.map CStr.text) ∧
      IsCString (hg₁.logSubsys.map CStr.text) := by
    rw [hhg₁, initParameters]
    split
    · next info hsome _ =>
        refine ⟨fits_copyInitInfo (huser info hsome) initializer w, ?_, ?_⟩
        · intro text htext
          cases htext
        · intro text htext
          cases htext
    · refine ⟨fits_readJson v casts r json user.protocol initializer w, ?_, ?_⟩
      · change IsCString ((strdupField json "log_level" _).1.map CStr.text)
        rw [text_strdupField]
        exact isCString_stringField json "log_level"
      · change IsCString ((strdupField json "log_subsys" _).1.map CStr.text)
        rw [text_strdupField]
        exact isCString_stringField json "log_subsys"
  have hdefault {s : Option CStr} (hs : IsCString (s.map CStr.text)) {d : String}
      (hd : Json.cString d = d) : IsCString (some ((s.map CStr.text).getD d)) := by
    intro text htext
    obtain rfl := Option.some.inj htext
    cases s with
    | none => exact hd
    | some s => exact hs s.text rfl
  constructor
  · rw [hinfo]
    exact hfits.1
  · rw [hlevel, text_strdupDefault]
    exact hdefault hfits.2.1 rfl
  · rw [hsubsys, text_strdupDefault]
    exact hdefault hfits.2.2 rfl
  · rw [hlevel]
    cases hg₁.logLevel with
    | none => rfl
    | some s => rfl
  · rw [hsubsys]
    cases hg₁.logSubsys with
    | none => rfl
    | some s => rfl

/-- The report of a class that margo has made is a valid configuration. Initializing from it,
in the same environment, gives the same settings, and an authentication key where the user's
`hg_init_info` had none and one is set; and the same settings give the same report. -/
theorem hg_round_trip (huser : ∀ info, user.hgInitInfo = some info → info.Fits v casts)
    (h : hgInitFromJson v casts r json user (.initial initializer) w = (true, hg, w'))
    (howns : hg.ownsHgClass = true) :
    hgValidateJson v (hgToJson v r hg) = .ok () ∧
    ∀ (r' : Replies) (user' : UserArgs) (initializer' : HgInitInfo) (w₁ w₁' : Ledger Kind)
      (hg' : MargoHg), user'.hgInitInfo = none → user'.protocol = user.protocol →
      r'.slingshotVnis = r.slingshotVnis →
      hgInitFromJson v casts r' (hgToJson v r hg) user' (.initial initializer') w₁ =
        (true, hg', w₁') →
      hg'.settings v = { hg.settings v with
        authKey := (hg.settings v).authKey.or
          (autoSetCxiAuthKey user.protocol r.slingshotVnis) } ∧
      (user.hgInitInfo = none → hg'.settings v = hg.settings v) ∧
      (hg'.settings v = hg.settings v ↔ hg.hgInitInfo.authKey ≠ none ∨
        autoSetCxiAuthKey user.protocol r.slingshotVnis = none) ∧
      (hg'.settings v = hg.settings v → hg'.ownsHgClass = true →
        classFields r' hg' = classFields r hg → hgToJson v r' hg' = hgToJson v r hg) := by
  refine ⟨hgValidateJson_hgToJson howns, ?_⟩
  intro r' user' initializer' w₁ w₁' hg' hnone hprotocol hvnis h'
  have hagain : hg'.settings v = { hg.settings v with
      authKey := (hg.settings v).authKey.or
        (autoSetCxiAuthKey user.protocol r.slingshotVnis) } := by
    rw [settings_eq (Or.inl hnone) h', hprotocol, hvnis]
    exact readSettings_hgToJson (fits_hgInitFromJson huser h) howns _ _
  have hiff : hg'.settings v = hg.settings v ↔ hg.hgInitInfo.authKey ≠ none ∨
      autoSetCxiAuthKey user.protocol r.slingshotVnis = none := by
    rw [hagain]
    constructor
    · intro heq
      have hkey := congrArg Settings.authKey heq
      by_cases hauth : hg.hgInitInfo.authKey = none
      · right
        rw [MargoHg.settings, hauth] at hkey
        exact hkey
      · exact Or.inl hauth
    · intro hcases
      ext1
      case authKey =>
        dsimp only
        rcases hcases with hsome | hauto
        · obtain ⟨key, hkey⟩ := Option.ne_none_iff_exists'.mp hsome
          rw [MargoHg.settings, hkey]
          rfl
        · rw [hauto, Option.or_none]
      all_goals rfl
  refine ⟨hagain, ?_, hiff, ?_⟩
  · intro hjson
    apply hiff.mpr
    have hkey := congrArg Settings.authKey (settings_eq (Or.inl hjson) h)
    by_cases hauth : hg.hgInitInfo.authKey = none
    · right
      rw [MargoHg.settings, hauth, readSettings] at hkey
      exact (Option.or_eq_none_iff.mp hkey.symm).2
    · exact Or.inl hauth
  · intro hsettings howns' hclass
    rw [hgToJson, hgToJson, howns, howns', initInfoFields_eq, initInfoFields_eq, hsettings, hclass]

/-- A process on a node with two networks, with the given configuration. -/
def onCxi (json : Json) : Bool × MargoHg × Ledger Kind :=
  hgInitFromJson mercury ⟨wide, wide, wide, wide, wide⟩ allSucceeds json
    ⟨"ofi+cxi://", none, none, none⟩ (.initial .zero) ⟨0, [], []⟩

/-- The key that is set the first time is given the second time. -/
theorem hg_round_trip_cxi :
    let hg := (onCxi (.object [("auto_sm", .boolean true)])).2.1
    hgValidateJson mercury (hgToJson mercury allSucceeds hg) = .ok () ∧
      (hg.settings mercury).authKey = some "0:0:1" ∧
      (onCxi (hgToJson mercury allSucceeds hg)).2.1.settings mercury = hg.settings mercury := by
  have h : onCxi (.object [("auto_sm", .boolean true)]) = (true, _, _) := rfl
  have hnone : ∀ info, (none : Option HgInitInfo) = some info →
      info.Fits mercury ⟨wide, wide, wide, wide, wide⟩ := by
    intro info hinfo
    cases hinfo
  obtain ⟨hvalid, hagain⟩ := hg_round_trip hnone h rfl
  refine ⟨hvalid, rfl, ?_⟩
  exact (hagain allSucceeds ⟨"ofi+cxi://", none, none, none⟩ .zero ⟨0, [], []⟩ _ _ rfl rfl rfl
    rfl).2.1 rfl

end Margo.Hg

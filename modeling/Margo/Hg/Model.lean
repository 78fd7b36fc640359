import Margo.Abt.Json
import Margo.Lib.Ledger
import Mathlib.Algebra.Group.Nat.Defs

/-!
# The Mercury section of the configuration

What `margo-hg-config.c` accepts in the section, what it makes of it, what it reports later,
and which objects it creates on the way and destroys in the end.

## Implementation notes

An integer member of `hg_init_info` is told by the `uint64_t` that it converts to; a cast to
the type of the member and back is a parameter, since the types are Mercury's. Pointers to
strings have an address and a text. What `strdup` is given it copies. `SLINGSHOT_VNIS` and
everything that Mercury answers are in `Replies`. The warnings are left out.
-/

namespace Margo.Hg

open Lib Abt

/-- The version of Mercury, in which `hg_init_info` has `sm_info_string`, since
`__margo_hg_destroy` frees it. -/
structure Version where
  major : Nat
  minor : Nat
  patch : Nat
  hasSmInfoString : major > 2 ∨ major = 2 ∧ minor > 0

/-- The condition on `na_max_unexpected_size` and `na_max_expected_size`. -/
def Version.hasSizes (v : Version) : Bool :=
  v.major > 2 || v.major = 2 && (v.minor > 1 || v.minor = 0 && v.patch > 0)

/-- The condition on `na_request_mem_device`, `checksum_level` and `na_addr_format`. -/
def Version.hasMemDevice (v : Version) : Bool :=
  v.major > 2 || v.major = 2 && v.minor > 1

/-- A cast to the type of a member of `hg_init_info`, and back. -/
structure Cast where
  cast : BitVec 64 → BitVec 64
  cast_cast : ∀ x, cast (cast x) = cast x

/-- The casts to the integer members. -/
structure Casts where
  requestPostInit : Cast
  requestPostIncr : Cast
  maxContexts : Cast
  maxUnexpectedSize : Cast
  maxExpectedSize : Cast

/-- `hg_checksum_level_t`. -/
inductive ChecksumLevel
  | none
  | rpcHeaders
  | rpcPayload
  deriving DecidableEq, Repr

/-- `enum na_addr_format`. -/
inductive AddrFormat
  | unspec
  | ipv4
  | ipv6
  | native
  deriving DecidableEq, Repr

/-- A `char*`. -/
structure CStr where
  address : Nat
  text : String
  deriving DecidableEq, Repr

/-- The members of `struct hg_init_info`, and of the `na_init_info` in it, that the section is
about. -/
structure HgInitInfo where
  requestPostInit : BitVec 64
  requestPostIncr : BitVec 64
  autoSm : Bool
  noBulkEager : Bool
  noLoopback : Bool
  stats : Bool
  progressMode : BitVec 32
  maxContexts : BitVec 64
  ipSubnet : Option CStr
  authKey : Option CStr
  maxUnexpectedSize : BitVec 64
  maxExpectedSize : BitVec 64
  smInfoString : Option CStr
  requestMemDevice : Bool
  checksumLevel : ChecksumLevel
  addrFormat : AddrFormat
  deriving DecidableEq

/-- `NA_NO_BLOCK`. -/
def naNoBlock : BitVec 32 := 1

/-- `NA_NO_RETRY`. -/
def naNoRetry : BitVec 32 := 2

/-- The kinds of the objects that are created. -/
inductive Kind
  | string
  | hgClass
  | hgContext
  | hgAddr
  deriving DecidableEq, Repr

/-- `margo_hg_t`. -/
structure MargoHg where
  hgInitInfo : HgInitInfo
  hgClass : Option Nat
  hgContext : Option Nat
  selfAddr : Option Nat
  selfAddrStr : Option CStr
  logLevel : Option CStr
  logSubsys : Option CStr
  ownsHgClass : Bool
  ownsHgContext : Bool
  deriving DecidableEq

/-- Zeros. -/
def HgInitInfo.zero : HgInitInfo :=
  ⟨0, 0, false, false, false, false, 0, 0, none, none, 0, 0, none, false, .none, .unspec⟩

/-- `HG_INIT_INFO_INITIALIZER`, which has no strings, and null. -/
def MargoHg.initial (initializer : HgInitInfo) : MargoHg where
  hgInitInfo := { initializer with ipSubnet := none, authKey := none, smInfoString := none }
  hgClass := none
  hgContext := none
  selfAddr := none
  selfAddrStr := none
  logLevel := none
  logSubsys := none
  ownsHgClass := false
  ownsHgContext := false

/-- `margo_hg_user_args_t`. -/
structure UserArgs where
  protocol : String
  hgInitInfo : Option HgInitInfo
  hgClass : Option Nat
  hgContext : Option Nat

/-- The environment and the answers of Mercury. -/
structure Replies where
  /-- `SLINGSHOT_VNIS`. -/
  slingshotVnis : Option String
  /-- What `mochi_plumber_resolve_nic` stores. -/
  resolvedAddr : Option String
  initOpt : Bool
  /-- `HG_Context_get_class`. -/
  getClass : Nat → Option Nat
  contextCreate : Bool
  addrSelf : Bool
  addrToString : Bool
  selfAddrStr : String
  calloc : Bool
  isListening : Bool
  inputEagerSize : BitVec 64
  outputEagerSize : BitVec 64
  version : String

/-! ## Validation -/

/-- The fields of every version, in the order in which they are checked. -/
def fieldTypes : List (String × JsonType) :=
  [("address", .string), ("version", .string), ("listening", .boolean),
    ("request_post_incr", .int), ("request_post_init", .int), ("auto_sm", .boolean),
    ("no_bulk_eager", .boolean), ("no_loopback", .boolean), ("stats", .boolean),
    ("na_no_block", .boolean), ("na_no_retry", .boolean), ("max_contexts", .int),
    ("ip_subnet", .string), ("auth_key", .string), ("input_eager_size", .int),
    ("output_eager_size", .int), ("log_level", .string), ("log_subsys", .string)]

/-- `ASSERT_CONFIG_HAS_OPTIONAL` for one field after the other. -/
def assertFields (json : Json) (fields : List (String × JsonType)) : Check :=
  fields.forM fun f => assertConfigHasOptional json f.1 f.2 "mercury"

/-- `CONFIG_IS_IN_ENUM_STRING` for a field that is there. -/
def assertEnum (json : Json) (key : String) (values : List String) : Check :=
  if (json.get key).present then configIsInEnumString (json.get key) key values else pure ()

/-- `__margo_hg_validate_json`. -/
def hgValidateJson (v : Version) (json : Json) : Check :=
  if !json.present then pure ()
  else if !json.isType .object then
    throw "\"mercury\" field in configuration must be an object"
  else do
    assertFields json fieldTypes
    if v.hasSizes then
      assertFields json [("na_max_unexpected_size", .int), ("na_max_expected_size", .int)]
    assertFields json [("sm_info_string", .string)]
    if v.hasMemDevice then
      assertFields json [("na_request_mem_device", .boolean), ("checksum_level", .string)]
      assertEnum json "checksum_level" ["none", "rpc_headers", "rpc_payload"]
      assertFields json [("na_addr_format", .string)]
      assertEnum json "na_addr_format" ["unspec", "ipv4", "ipv4", "ipv6", "native"]

/-! ## Initialization -/

/-- `json_object_get_uint64` of an integer: one out of range is clamped. -/
def getUint64 : Json → BitVec 64
  | .int i => BitVec.ofNat 64 (min i.toNat (2 ^ 64 - 1))
  | _ => 0

/-- `json_object_object_get_uint64_or`. -/
def getUint64Or (json : Json) (key : String) (x : BitVec 64) : BitVec 64 :=
  if (json.get key).isType .int then getUint64 (json.get key) else x

/-- `json_object_object_get_bool_or`. -/
def getBoolOr (json : Json) (key : String) (x : Bool) : Bool :=
  if (json.get key).isType .boolean then (json.get key).getBoolean else x

/-- `strdup`. -/
def strdup (text : String) (w : Ledger Kind) : Option CStr × Ledger Kind :=
  let (address, w) := w.create .string
  (some ⟨address, text⟩, w)

/-- `strdup` of a string that is not null. -/
def strdupIf (s : Option CStr) (w : Ledger Kind) : Option CStr × Ledger Kind :=
  match s with
  | none => (none, w)
  | some s => strdup s.text w

/-- `strdup` of a field, if it is there. -/
def strdupField (json : Json) (key : String) (w : Ledger Kind) : Option CStr × Ledger Kind :=
  if (json.get key).present then strdup (json.get key).getString w else (none, w)

/-- `strdup` of a default, where a string is null. -/
def strdupDefault (s : Option CStr) (text : String) (w : Ledger Kind) :
    Option CStr × Ledger Kind :=
  match s with
  | none => strdup text w
  | some s => (some s, w)

/-- `strstr` finds something. -/
def strstr (needle : List Char) : List Char → Bool
  | [] => needle.isEmpty
  | c :: cs => needle.isPrefixOf (c :: cs) || strstr needle cs

/-- `auto_set_cxi_auth_key`, where no key is given: the key that it sets. -/
def autoSetCxiAuthKey (protocol : String) (slingshotVnis : Option String) : Option String :=
  if !strstr "cxi".toList protocol.toList then none
  else
    match slingshotVnis with
    | none => none
    | some vnis => if 1 + vnis.toList.count ',' > 1 then some "0:0:1" else none

/-- The reader of `auth_key`. -/
def readAuthKey (r : Replies) (json : Json) (protocol : String) (w : Ledger Kind) :
    Option CStr × Ledger Kind :=
  if (json.get "auth_key").present then strdup (json.get "auth_key").getString w
  else
    match autoSetCxiAuthKey protocol r.slingshotVnis with
    | none => (none, w)
    | some key => strdup key w

/-- The reader of `checksum_level`. -/
def readChecksumLevel (json : Json) (level : ChecksumLevel) : ChecksumLevel :=
  if !(json.get "checksum_level").present then level
  else if (json.get "checksum_level").getString = "rpc_headers" then .rpcHeaders
  else if (json.get "checksum_level").getString = "rpc_payload" then .rpcPayload
  else .none

/-- The reader of `na_addr_format`. -/
def readAddrFormat (json : Json) (format : AddrFormat) : AddrFormat :=
  if !(json.get "na_addr_format").present then format
  else if (json.get "na_addr_format").getString = "ipv4" then .ipv4
  else if (json.get "na_addr_format").getString = "ipv6" then .ipv6
  else if (json.get "na_addr_format").getString = "native" then .native
  else .unspec

/-- The bits that `na_no_block` and `na_no_retry` set. -/
def progressMode (noBlock noRetry : Bool) : BitVec 32 :=
  let mode : BitVec 32 := 0
  let mode := if noBlock then mode ||| naNoBlock else mode
  if noRetry then mode ||| naNoRetry else mode

/-- The `else` of the first branch: the parameters from the configuration. -/
def readJson (v : Version) (casts : Casts) (r : Replies) (json : Json) (protocol : String)
    (hg : MargoHg) (w : Ledger Kind) : MargoHg × Ledger Kind :=
  let info := hg.hgInitInfo
  let (ipSubnet, w) := strdupField json "ip_subnet" w
  let (authKey, w) := readAuthKey r json protocol w
  let (logLevel, w) := strdupField json "log_level" w
  let (logSubsys, w) := strdupField json "log_subsys" w
  let (smInfoString, w) := strdupField json "sm_info_string" w
  let info : HgInitInfo := {
    requestPostInit := casts.requestPostInit.cast (getUint64Or json "request_post_init" 256)
    requestPostIncr := casts.requestPostIncr.cast (getUint64Or json "request_post_incr" 256)
    autoSm := getBoolOr json "auto_sm" false
    noBulkEager := getBoolOr json "no_bulk_eager" false
    noLoopback := getBoolOr json "no_loopback" false
    stats := getBoolOr json "stats" false
    progressMode :=
      progressMode (getBoolOr json "na_no_block" false) (getBoolOr json "na_no_retry" false)
    maxContexts := casts.maxContexts.cast (getUint64Or json "max_contexts" 0)
    ipSubnet := ipSubnet
    authKey := authKey
    maxUnexpectedSize :=
      if v.hasSizes then
        casts.maxUnexpectedSize.cast (getUint64Or json "na_max_unexpected_size" 0)
      else info.maxUnexpectedSize
    maxExpectedSize :=
      if v.hasSizes then casts.maxExpectedSize.cast (getUint64Or json "na_max_expected_size" 0)
      else info.maxExpectedSize
    smInfoString := smInfoString
    requestMemDevice :=
      if v.hasMemDevice then getBoolOr json "na_request_mem_device" false
      else info.requestMemDevice
    checksumLevel :=
      if v.hasMemDevice then readChecksumLevel json info.checksumLevel else info.checksumLevel
    addrFormat :=
      if v.hasMemDevice then readAddrFormat json info.addrFormat else info.addrFormat }
  ({ hg with hgInitInfo := info, logLevel := logLevel, logSubsys := logSubsys }, w)

/-- The first branch: the parameters that the user gave, with strings of their own. -/
def copyInitInfo (info : HgInitInfo) (hg : MargoHg) (w : Ledger Kind) : MargoHg × Ledger Kind :=
  let (smInfoString, w) := strdupIf info.smInfoString w
  let (ipSubnet, w) := strdupIf info.ipSubnet w
  let (authKey, w) := strdupIf info.authKey w
  ({ hg with hgInitInfo := { info with smInfoString, ipSubnet, authKey } }, w)

/-- `free` of a string that may be null. -/
def freeString (s : Option CStr) (w : Ledger Kind) : Ledger Kind :=
  match s with
  | none => w
  | some s => w.release .string s.address

/-- `HG_Addr_free`, as `__margo_hg_destroy` calls it. -/
def freeAddr (hg : MargoHg) (w : Ledger Kind) : Ledger Kind :=
  match hg.hgClass, hg.selfAddr with
  | some _, some a => w.release .hgAddr a
  | _, _ => w

/-- `HG_Context_destroy`, as `__margo_hg_destroy` calls it. -/
def destroyContext (hg : MargoHg) (w : Ledger Kind) : Ledger Kind :=
  match hg.hgContext with
  | some c => if hg.ownsHgContext then w.release .hgContext c else w
  | none => w

/-- `HG_Finalize`, as `__margo_hg_destroy` calls it. -/
def finalizeClass (hg : MargoHg) (w : Ledger Kind) : Ledger Kind :=
  match hg.hgClass with
  | some c => if hg.ownsHgClass then w.release .hgClass c else w
  | none => w

/-- `__margo_hg_destroy`. -/
def hgDestroy (hg : MargoHg) (w : Ledger Kind) : MargoHg × Ledger Kind :=
  let w := freeString hg.hgInitInfo.smInfoString w
  let w := freeString hg.hgInitInfo.authKey w
  let w := freeString hg.hgInitInfo.ipSubnet w
  let w := freeString hg.selfAddrStr w
  let w := freeString hg.logLevel w
  let w := freeString hg.logSubsys w
  let w := freeAddr hg w
  let w := destroyContext hg w
  let w := finalizeClass hg w
  -- the structure is set to zero
  (.initial .zero, w)

/-- A new class. -/
def makeClass (r : Replies) (hg : MargoHg) (w : Ledger Kind) : Bool × MargoHg × Ledger Kind :=
  let (resolvedAddr, w) :=
    match r.resolvedAddr with
    | none => (none, w)
    | some addr => strdup addr w
  if r.initOpt then
    let (c, w) := w.create .hgClass
    (true, { hg with hgClass := some c, ownsHgClass := true }, freeString resolvedAddr w)
  else (false, hg, freeString resolvedAddr w)

/-- The class: the user's, or a new one. -/
def initClass (r : Replies) (user : UserArgs) (hg : MargoHg) (w : Ledger Kind) :
    Bool × MargoHg × Ledger Kind :=
  match user.hgClass, user.hgContext with
  | some c, none => (true, { hg with hgClass := some c }, w)
  | _, _ => makeClass r hg w

/-- The context: the user's, and with it its class, or a new one. -/
def initContext (r : Replies) (user : UserArgs) (hg : MargoHg) (w : Ledger Kind) :
    Bool × MargoHg × Ledger Kind :=
  match user.hgContext with
  | some c =>
      let hg := { hg with hgContext := some c, hgClass := r.getClass c }
      (hg.hgClass.isSome, hg, w)
  | none =>
      if r.contextCreate then
        let (c, w) := w.create .hgContext
        (true, { hg with hgContext := some c, ownsHgContext := true }, w)
      else (false, hg, w)

/-- The address of the process. -/
def initSelfAddr (r : Replies) (hg : MargoHg) (w : Ledger Kind) : Bool × MargoHg × Ledger Kind :=
  if !r.addrSelf then (false, hg, w)
  else
    let (a, w) := w.create .hgAddr
    let hg := { hg with selfAddr := some a }
    if !r.addrToString && r.isListening then (true, { hg with selfAddrStr := none }, w)
    else if !r.calloc then (false, hg, w)
    else
      let (s, w) := strdup r.selfAddrStr w
      (true, { hg with selfAddrStr := s }, w)

/-- The defaults of the log. -/
def initLog (hg : MargoHg) (w : Ledger Kind) : MargoHg × Ledger Kind :=
  let (logLevel, w) := strdupDefault hg.logLevel "warning" w
  let (logSubsys, w) := strdupDefault hg.logSubsys "hg,na" w
  ({ hg with logLevel, logSubsys }, w)

/-- The label `error`. -/
def initError (hg : MargoHg) (w : Ledger Kind) : Bool × MargoHg × Ledger Kind :=
  (false, hgDestroy hg w)

/-- The end of the initialization, from `HG_Addr_self` on. -/
def initRest (r : Replies) (hg : MargoHg) (w : Ledger Kind) : Bool × MargoHg × Ledger Kind :=
  let (done, hg, w) := initSelfAddr r hg w
  if !done then initError hg w
  else
    let (hg, w) := initLog hg w
    (true, hg, w)

/-- The parameters: the user's, or those of the configuration. -/
def initParameters (v : Version) (casts : Casts) (r : Replies) (json : Json) (user : UserArgs)
    (hg : MargoHg) (w : Ledger Kind) : MargoHg × Ledger Kind :=
  match user.hgInitInfo, user.hgClass with
  | some info, none => copyInitInfo info hg w
  | _, _ => readJson v casts r json user.protocol hg w

/-- `__margo_hg_init_from_json`. -/
def hgInitFromJson (v : Version) (casts : Casts) (r : Replies) (json : Json) (user : UserArgs)
    (hg : MargoHg) (w : Ledger Kind) : Bool × MargoHg × Ledger Kind :=
  let (hg, w) := initParameters v casts r json user hg w
  let (done, hg, w) := initClass r user hg w
  if !done then initError hg w
  else
    let (done, hg, w) := initContext r user hg w
    if !done then initError hg w else initRest r hg w

/-! ## The report -/

/-- The texts of the levels. -/
def checksumLevelStr : ChecksumLevel → String
  | .none => "none"
  | .rpcHeaders => "rpc_headers"
  | .rpcPayload => "rpc_payload"

/-- The texts of the formats. -/
def naAddrFormatStr : AddrFormat → String
  | .unspec => "unspec"
  | .ipv4 => "ipv4"
  | .ipv6 => "ipv6"
  | .native => "native"

/-- `json_object_new_string` of a string that is not null. -/
def stringIf (s : Option CStr) : Option Json := s.map fun s => .string s.text

/-- `json_object_new_uint64`. -/
def newUint64 (x : BitVec 64) : Option Json := some (.int x.toNat)

/-- `json_object_new_boolean`. -/
def newBoolean (b : Bool) : Option Json := some (.boolean b)

/-- The fields that depend on the class and its context. -/
def classFields (r : Replies) (hg : MargoHg) : List (String × Option Json) :=
  [("version", some (.string r.version)),
    ("address", stringIf hg.selfAddrStr),
    ("listening", newBoolean r.isListening),
    ("input_eager_size", newUint64 r.inputEagerSize),
    ("output_eager_size", newUint64 r.outputEagerSize)]

/-- The fields of the parameters. -/
def initInfoFields (v : Version) (hg : MargoHg) : List (String × Option Json) :=
  let info := hg.hgInitInfo
  [("request_post_init", newUint64 info.requestPostInit),
    ("request_post_incr", newUint64 info.requestPostIncr),
    ("auto_sm", newBoolean info.autoSm),
    ("no_bulk_eager", newBoolean info.noBulkEager),
    ("no_loopback", newBoolean info.noLoopback),
    ("stats", newBoolean info.stats),
    ("na_no_block", newBoolean (info.progressMode &&& naNoBlock ≠ 0)),
    ("na_no_retry", newBoolean (info.progressMode &&& naNoRetry ≠ 0)),
    ("max_contexts", newUint64 info.maxContexts),
    ("ip_subnet", stringIf info.ipSubnet),
    ("auth_key", stringIf info.authKey),
    ("log_level", stringIf hg.logLevel),
    ("log_subsys", stringIf hg.logSubsys),
    ("na_max_unexpected_size", if v.hasSizes then newUint64 info.maxUnexpectedSize else none),
    ("na_max_expected_size", if v.hasSizes then newUint64 info.maxExpectedSize else none),
    ("sm_info_string", stringIf info.smInfoString),
    ("na_request_mem_device", if v.hasMemDevice then newBoolean info.requestMemDevice else none),
    ("checksum_level",
      if v.hasMemDevice then some (.string (checksumLevelStr info.checksumLevel)) else none),
    ("na_addr_format",
      if v.hasMemDevice then some (.string (naAddrFormatStr info.addrFormat)) else none)]

/-- The fields that are added to an object. -/
def addFields (fields : List (String × Option Json)) : List (String × Json) :=
  fields.filterMap fun f => f.2.map fun j => (f.1, j)

/-- `__margo_hg_to_json`. -/
def hgToJson (v : Version) (r : Replies) (hg : MargoHg) : Json :=
  .object (addFields
    (classFields r hg ++ if hg.ownsHgClass then initInfoFields v hg else []))

end Margo.Hg

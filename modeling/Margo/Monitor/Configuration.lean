import Margo.Init.Config
import Margo.Lib.Separators

/-!
# The configuration of the default monitor

The default monitor reads its eight settings from the environment and from the object at
`monitoring.config`, and writes an object for the same place in the configuration that
`margo_get_config_opt` reports. The reader and the writer do not agree on where a setting
stands, nor on which settings are written at all.

## Implementation notes

The `double`s of the program are a parameter, with the text json-c prints for a number and
the number it reads from a text. A variable of the environment is a C string.
-/

namespace Margo.Monitor.Configuration

open Abt Init

/-- The `double`s, as json-c reads and prints them. -/
structure Doubles (D : Type) where
  /-- The number that a text is read as. -/
  read : String → D
  /-- The text that a number is printed as. -/
  print : D → String
  /-- The cast of an integer. -/
  ofInt : Int → D
  /-- Seventeen digits tell two numbers apart. -/
  read_print : ∀ x, read (print x) = x
  /-- Integers are only rounded from `2 ^ 53` on. -/
  ofInt_one : ∀ i, ofInt i = ofInt 1 → i = 1

/-- The variables `MARGO_MONITORING_*` of the environment. -/
structure Environment where
  filenamePrefix : Option String
  disableStatistics : Option String
  disableTimeSeries : Option String

/-- An environment without these variables. -/
def Environment.unset : Environment := ⟨none, none, none⟩

/-- The settings in `default_monitor_state_t`. -/
@[ext]
structure Settings (D : Type) where
  filenamePrefix : String
  precision : Int
  statsPrettyJson : Nat
  timeSeriesPrettyJson : Nat
  sampleProgressEvery : Int
  timeSeriesInterval : D
  enableStatistics : Bool
  enableTimeSeries : Bool
  deriving DecidableEq

/-- `JSON_C_TO_STRING_PRETTY`. -/
def jsonCToStringPretty : Nat := 2

/-! ## The reader -/

/-- The reader of `disable` in a section. -/
def readDisable (block : Json) (enabled : Bool) : Bool :=
  let disable := block.get "disable"
  if disable.isType .boolean then !disable.getBoolean else enabled

/-- The reader of `precision` in a section. -/
def readPrecision (block : Json) (precision : Int) : Int :=
  let field := block.get "precision"
  if field.isType .int then field.getInt else precision

/-- The reader of `pretty_json` in a section. -/
def readPrettyJson (block : Json) (flag : Nat) : Nat :=
  let prettyJson := block.get "pretty_json"
  if prettyJson.isType .boolean && prettyJson.getBoolean then jsonCToStringPretty else flag

/-- The reader of `sample_progress_every`. -/
def readSampling (statistics : Json) (every : Int) : Int :=
  let sampling := statistics.get "sample_progress_every"
  if sampling.isType .int then
    if sampling.getInt ≤ 0 then 0 else sampling.getInt
  else every

section

variable {D : Type} (F : Doubles D)

/-- The settings before the configuration is read. -/
def defaultSettings (env : Environment) : Settings D where
  filenamePrefix := Json.cString (env.filenamePrefix.getD "margo")
  precision := 9
  statsPrettyJson := 0
  timeSeriesPrettyJson := 0
  sampleProgressEvery := 1
  timeSeriesInterval := F.ofInt 1
  enableStatistics := !env.disableStatistics.isSome
  enableTimeSeries := !env.disableTimeSeries.isSome

/-- The part of `__margo_default_monitor_initialize` that reads `filename_prefix`. -/
def readFilenamePrefix (config : Json) (monitor : Settings D) : Settings D :=
  let filenamePrefix := config.get "filename_prefix"
  if filenamePrefix.isType .string then
    { monitor with filenamePrefix := filenamePrefix.getString }
  else monitor

/-- The part of `__margo_default_monitor_initialize` that reads `statistics`. -/
def readStatistics (config : Json) (monitor : Settings D) : Settings D :=
  let statistics := config.get "statistics"
  if statistics.isType .object then
    { monitor with
      enableStatistics := readDisable statistics monitor.enableStatistics
      precision := min (readPrecision statistics monitor.precision) 9
      sampleProgressEvery := readSampling statistics monitor.sampleProgressEvery
      statsPrettyJson := readPrettyJson statistics monitor.statsPrettyJson }
  else monitor

/-- The reader of `time_interval_sec`. -/
def readTimeInterval (timeSeries : Json) (interval : D) : D :=
  match timeSeries.get "time_interval_sec" with
  -- the test for an integer stands inside the one for a double
  | .double digits => F.read digits
  | _ => interval

/-- The part of `__margo_default_monitor_initialize` that reads `time_series`. -/
def readTimeSeries (config : Json) (monitor : Settings D) : Settings D :=
  let timeSeries := config.get "time_series"
  if timeSeries.isType .object then
    { monitor with
      enableTimeSeries := readDisable timeSeries monitor.enableTimeSeries
      precision := readPrecision timeSeries monitor.precision
      timeSeriesInterval := readTimeInterval F timeSeries monitor.timeSeriesInterval
      timeSeriesPrettyJson := readPrettyJson timeSeries monitor.timeSeriesPrettyJson }
  else monitor

/-- `__margo_default_monitor_initialize`. -/
def defaultMonitorInitialize (env : Environment) (config : Json) : Settings D :=
  readTimeSeries F config (readStatistics config (readFilenamePrefix config
    (defaultSettings F env)))

/-! ## The writer -/

/-- `__margo_default_monitor_config`. -/
def defaultMonitorConfig (monitor : Settings D) : Json :=
  .object [
    ("filename_prefix", .string monitor.filenamePrefix),
    ("precision", .int monitor.precision),
    ("statistics", .object [
      ("pretty_json", .boolean (monitor.statsPrettyJson ≠ 0)),
      ("disable", .boolean (!monitor.enableStatistics))]),
    ("time_series", .object [
      -- the flag of the statistics once more
      ("pretty_json", .boolean (monitor.statsPrettyJson ≠ 0)),
      ("disable", .boolean (!monitor.enableTimeSeries)),
      ("time_interval_sec", .double (F.print monitor.timeSeriesInterval))])]

/-- The section `monitoring` that `margo_get_config_opt` emits. -/
def monitoringSection (monitor : Settings D) : Json :=
  .object [("name", .string "default"), ("config", defaultMonitorConfig F monitor)]

/-- The object that `margo_init_ext` gives to the monitor. -/
def monitoringConfig (config : Json) : Json :=
  let monitoring := config.get "monitoring"
  if monitoring.present then monitoring.get "config" else .object []

/-- A second monitor, from what the first one reports. -/
def givenBack (monitor : Settings D) : Settings D :=
  defaultMonitorInitialize F .unset
    (monitoringConfig (.object [("monitoring", monitoringSection F monitor)]))

/-! ## What is claimed of the two -/

/-- The monitor made from the report has the settings of the reported one. -/
def RoundTrips (env : Environment) (config : Json) : Prop :=
  givenBack F (defaultMonitorInitialize F env config) = defaultMonitorInitialize F env config

end

/-- `json_object_object_add`: a field of an object is replaced. -/
def put (j : Json) (key : String) (value : Json) : Json :=
  match j with
  | .object fields => .object ((key, value) :: fields)
  | _ => j

/-- The configuration with another `time_interval_sec`. -/
def withTimeInterval (config value : Json) : Json :=
  put config "time_series" (put (config.get "time_series") "time_interval_sec" value)

/-- An integer `time_interval_sec` does what the equal `double` does. -/
def IntegerHonoured {D : Type} (F : Doubles D) (env : Environment) (config : Json) : Prop :=
  ∀ i, (config.get "time_series").get "time_interval_sec" = .int i →
    defaultMonitorInitialize F env config =
      defaultMonitorInitialize F env
        (withTimeInterval config (.double (F.print (F.ofInt (getInt64 (.int i))))))

/-- An integer field. -/
def intField (block : Json) (key : String) : Option Int :=
  if (block.get key).isType .int then some (block.get key).getInt else none

/-- A field that is `true`. -/
def setField (block : Json) (key : String) : Bool :=
  (block.get key).isType .boolean && (block.get key).getBoolean

/-- The precision that two sections leave is the default one: that of the time series is
taken last, and that of the statistics is cut at it. -/
def DefaultPrecision (statistics timeSeries : Json) : Prop :=
  match intField timeSeries "precision", intField statistics "precision" with
  | some p, _ => p = 9
  | none, some p => 9 ≤ p
  | none, none => True

/-- The configurations that survive: what the report leaves out has its default value, the
two flags are the same, and the interval is not an integer. -/
structure Survives (config : Json) : Prop where
  precision : DefaultPrecision (config.get "statistics") (config.get "time_series")
  sampling : ∀ n ∈ intField (config.get "statistics") "sample_progress_every", n = 1
  pretty : setField (config.get "statistics") "pretty_json" =
    setField (config.get "time_series") "pretty_json"
  interval : ∀ i, (config.get "time_series").get "time_interval_sec" = .int i → i = 1

/-! ## What is read -/

/-- Anything but an object has no fields. -/
theorem get_eq_null {j : Json} (hj : j.isType .object = false) (key : String) :
    j.get key = .null := by
  cases j with
  | object fields => simp [Json.isType, Json.getType] at hj
  | _ => rfl

theorem cString_cString (s : String) : Json.cString (Json.cString s) = Json.cString s := by
  have hidem : (Json.cString s).toList.takeWhile (· ≠ '\x00') = (Json.cString s).toList := by
    rw [List.takeWhile_eq_self_iff, Json.cString, String.toList_ofList]
    intro c hc
    exact List.mem_takeWhile_imp (p := (· ≠ '\x00')) hc
  rw [Json.cString, hidem, String.ofList_toList]

section

variable {D : Type} (F : Doubles D) (env : Environment) (config : Json)

/-- The prefix that a monitor is left with. -/
def filenamePrefixOf : String :=
  if (config.get "filename_prefix").isType .string then
    (config.get "filename_prefix").getString
  else Json.cString (env.filenamePrefix.getD "margo")

theorem cString_filenamePrefixOf :
    Json.cString (filenamePrefixOf env config) = filenamePrefixOf env config := by
  unfold filenamePrefixOf
  split
  · next hstring =>
      cases hfield : config.get "filename_prefix" with
      | string s => exact cString_cString s
      | _ => simp [hfield, Json.isType, Json.getType] at hstring
  · exact cString_cString _

theorem readFilenamePrefix_default :
    readFilenamePrefix config (defaultSettings F env) =
      { defaultSettings F env with filenamePrefix := filenamePrefixOf env config } := by
  unfold readFilenamePrefix filenamePrefixOf
  by_cases hstring : (config.get "filename_prefix").isType .string = true
  · simp only [if_pos hstring]
  · simp only [if_neg hstring]
    rfl

/-- A section of the wrong type is read like one without fields. -/
theorem readStatistics_eq (monitor : Settings D) (hprecision : monitor.precision ≤ 9) :
    readStatistics config monitor =
      { monitor with
        enableStatistics := readDisable (config.get "statistics") monitor.enableStatistics
        precision := min (readPrecision (config.get "statistics") monitor.precision) 9
        sampleProgressEvery :=
          readSampling (config.get "statistics") monitor.sampleProgressEvery
        statsPrettyJson :=
          readPrettyJson (config.get "statistics") monitor.statsPrettyJson } := by
  unfold readStatistics
  cases hobject : (config.get "statistics").isType .object with
  | true => simp only [hobject, if_true]
  | false =>
      simp [readDisable, readPrecision, readSampling, readPrettyJson, get_eq_null hobject,
        Json.isType, Json.getType, min_eq_left hprecision]

/-- The time series have no bound on the precision to fall back to. -/
theorem readTimeSeries_eq (monitor : Settings D) :
    readTimeSeries F config monitor =
      { monitor with
        enableTimeSeries := readDisable (config.get "time_series") monitor.enableTimeSeries
        precision := readPrecision (config.get "time_series") monitor.precision
        timeSeriesInterval :=
          readTimeInterval F (config.get "time_series") monitor.timeSeriesInterval
        timeSeriesPrettyJson :=
          readPrettyJson (config.get "time_series") monitor.timeSeriesPrettyJson } := by
  unfold readTimeSeries
  cases hobject : (config.get "time_series").isType .object with
  | true => simp only [hobject, if_true]
  | false =>
      simp [readDisable, readPrecision, readTimeInterval, readPrettyJson, get_eq_null hobject,
        Json.isType, Json.getType]

/-- The eight settings, each from the fields it depends on. -/
theorem defaultMonitorInitialize_eq :
    defaultMonitorInitialize F env config =
      { filenamePrefix := filenamePrefixOf env config
        precision := readPrecision (config.get "time_series")
          (min (readPrecision (config.get "statistics") 9) 9)
        statsPrettyJson := readPrettyJson (config.get "statistics") 0
        timeSeriesPrettyJson := readPrettyJson (config.get "time_series") 0
        sampleProgressEvery := readSampling (config.get "statistics") 1
        timeSeriesInterval := readTimeInterval F (config.get "time_series") (F.ofInt 1)
        enableStatistics := readDisable (config.get "statistics") !env.disableStatistics.isSome
        enableTimeSeries :=
          readDisable (config.get "time_series") !env.disableTimeSeries.isSome } := by
  rw [defaultMonitorInitialize, readFilenamePrefix_default, readStatistics_eq _ _ le_rfl,
    readTimeSeries_eq]
  rfl

theorem readPrettyJson_eq (block : Json) :
    readPrettyJson block 0 = if setField block "pretty_json" then jsonCToStringPretty else 0 :=
  rfl

/-- What the report of any settings is read as. -/
theorem defaultMonitorInitialize_config (monitor : Settings D) :
    defaultMonitorInitialize F .unset (defaultMonitorConfig F monitor) =
      { monitor with
        filenamePrefix := Json.cString monitor.filenamePrefix
        precision := 9
        statsPrettyJson := if monitor.statsPrettyJson ≠ 0 then jsonCToStringPretty else 0
        timeSeriesPrettyJson := if monitor.statsPrettyJson ≠ 0 then jsonCToStringPretty else 0
        sampleProgressEvery := 1 } := by
  have hstatistics : (defaultMonitorConfig F monitor).get "statistics" =
      .object [("pretty_json", .boolean (monitor.statsPrettyJson ≠ 0)),
        ("disable", .boolean (!monitor.enableStatistics))] := rfl
  have htimeSeries : (defaultMonitorConfig F monitor).get "time_series" =
      .object [("pretty_json", .boolean (monitor.statsPrettyJson ≠ 0)),
        ("disable", .boolean (!monitor.enableTimeSeries)),
        ("time_interval_sec", .double (F.print monitor.timeSeriesInterval))] := rfl
  have hprefix : filenamePrefixOf .unset (defaultMonitorConfig F monitor) =
      Json.cString monitor.filenamePrefix := rfl
  rw [defaultMonitorInitialize_eq, hstatistics, htimeSeries, hprefix]
  simp [readPrecision, readPrettyJson, readSampling, readTimeInterval, readDisable, Json.get,
    List.lookup_cons, Json.isType, Json.getType, Json.getBoolean, F.read_print]

/-- What the second monitor is left with: three settings start over. -/
theorem givenBack_eq :
    givenBack F (defaultMonitorInitialize F env config) =
      { defaultMonitorInitialize F env config with
        precision := 9
        sampleProgressEvery := 1
        timeSeriesPrettyJson := (defaultMonitorInitialize F env config).statsPrettyJson } := by
  set monitor := defaultMonitorInitialize F env config with hmonitor
  have hprefix : Json.cString monitor.filenamePrefix = monitor.filenamePrefix := by
    rw [hmonitor, defaultMonitorInitialize_eq]
    exact cString_filenamePrefixOf env config
  have hflag : (if monitor.statsPrettyJson ≠ 0 then jsonCToStringPretty else 0) =
      monitor.statsPrettyJson := by
    rw [hmonitor, defaultMonitorInitialize_eq, readPrettyJson_eq]
    cases setField (config.get "statistics") "pretty_json" <;> rfl
  have hobject : monitoringConfig (.object [("monitoring", monitoringSection F monitor)]) =
      defaultMonitorConfig F monitor := rfl
  rw [givenBack, hobject, defaultMonitorInitialize_config, hflag, hprefix]

/-- The round trip is lossless exactly if three settings are what it makes of them. -/
theorem roundTrips_iff :
    RoundTrips F env config ↔
      (defaultMonitorInitialize F env config).precision = 9 ∧
      (defaultMonitorInitialize F env config).sampleProgressEvery = 1 ∧
      (defaultMonitorInitialize F env config).statsPrettyJson =
        (defaultMonitorInitialize F env config).timeSeriesPrettyJson := by
  rw [RoundTrips, givenBack_eq]
  constructor
  · intro h
    exact ⟨(congrArg Settings.precision h).symm, (congrArg Settings.sampleProgressEvery h).symm,
      congrArg Settings.timeSeriesPrettyJson h⟩
  · rintro ⟨hprecision, hsampling, hpretty⟩
    rw [hpretty, ← hprecision, ← hsampling]

/-! ## The three settings and the interval -/

theorem precision_iff :
    (defaultMonitorInitialize F env config).precision = 9 ↔
      DefaultPrecision (config.get "statistics") (config.get "time_series") := by
  rw [defaultMonitorInitialize_eq]
  simp only [readPrecision, DefaultPrecision, intField]
  by_cases htimeSeries : ((config.get "time_series").get "precision").isType .int = true
  · simp only [if_pos htimeSeries]
  · by_cases hstatistics : ((config.get "statistics").get "precision").isType .int = true
    · simp only [if_neg htimeSeries, if_pos hstatistics, min_eq_right_iff]
    · simp only [if_neg htimeSeries, if_neg hstatistics, min_self]

theorem sampling_iff :
    (defaultMonitorInitialize F env config).sampleProgressEvery = 1 ↔
      ∀ n ∈ intField (config.get "statistics") "sample_progress_every", n = 1 := by
  rw [defaultMonitorInitialize_eq]
  simp only [readSampling, intField]
  split
  · simp only [Option.mem_some_iff, forall_eq']
    split <;> omega
  · simp

theorem pretty_iff :
    (defaultMonitorInitialize F env config).statsPrettyJson =
        (defaultMonitorInitialize F env config).timeSeriesPrettyJson ↔
      setField (config.get "statistics") "pretty_json" =
        setField (config.get "time_series") "pretty_json" := by
  rw [defaultMonitorInitialize_eq]
  simp only [readPrettyJson_eq]
  cases setField (config.get "statistics") "pretty_json" <;>
    cases setField (config.get "time_series") "pretty_json" <;> decide

/-- An object with one more field. -/
theorem get_put {j : Json} (hj : j.isType .object = true) (key : String) (value : Json)
    (other : String) :
    (put j key value).get other = if other = key then value else j.get other := by
  cases j with
  | object fields =>
      by_cases hkey : other = key
      · simp [put, Json.get, hkey]
      · have hbeq : (other == key) = false := by simpa using hkey
        simp [put, Json.get, hkey, List.lookup_cons, hbeq]
  | _ => simp [Json.isType, Json.getType] at hj

/-- Only an object has fields. -/
theorem isType_object_of_get {j : Json} (key : String) (hget : j.get key ≠ .null) :
    j.isType .object = true := by
  by_contra hobject
  exact hget (get_eq_null (Bool.not_eq_true _ ▸ hobject) key)

/-- Another `time_interval_sec` changes nothing but the interval. -/
theorem defaultMonitorInitialize_withTimeInterval (digits : String)
    (hobject : (config.get "time_series").isType .object = true) :
    defaultMonitorInitialize F env (withTimeInterval config (.double digits)) =
      { defaultMonitorInitialize F env config with timeSeriesInterval := F.read digits } := by
  have hconfig : config.isType .object = true := by
    apply isType_object_of_get "time_series"
    intro hnull
    rw [hnull] at hobject
    cases hobject
  have htimeSeries : (withTimeInterval config (.double digits)).get "time_series" =
      put (config.get "time_series") "time_interval_sec" (.double digits) := by
    rw [withTimeInterval, get_put hconfig, if_pos rfl]
  have hstatistics : (withTimeInterval config (.double digits)).get "statistics" =
      config.get "statistics" := by
    rw [withTimeInterval, get_put hconfig, if_neg (by decide)]
  have hprefix : (withTimeInterval config (.double digits)).get "filename_prefix" =
      config.get "filename_prefix" := by
    rw [withTimeInterval, get_put hconfig, if_neg (by decide)]
  rw [defaultMonitorInitialize_eq, defaultMonitorInitialize_eq, htimeSeries, hstatistics,
    filenamePrefixOf, hprefix]
  simp only [readPrecision, readPrettyJson, readTimeInterval, readDisable, get_put hobject]
  simp [filenamePrefixOf]

theorem getInt64_eq_one {i : Int} (h : getInt64 (.int i) = 1) : i = 1 := by
  simp only [getInt64] at h
  omega

/-- Only the integer that is the default interval is as good as a `double`. -/
theorem integerHonoured_iff :
    IntegerHonoured F env config ↔
      ∀ i, (config.get "time_series").get "time_interval_sec" = .int i → i = 1 := by
  apply forall_congr'
  intro i
  apply imp_congr_right
  intro hfield
  have hobject : (config.get "time_series").isType .object = true := by
    apply isType_object_of_get "time_interval_sec"
    rw [hfield]
    exact Json.noConfusion
  have hignored : (defaultMonitorInitialize F env config).timeSeriesInterval = F.ofInt 1 := by
    rw [defaultMonitorInitialize_eq]
    simp only [readTimeInterval, hfield]
  rw [defaultMonitorInitialize_withTimeInterval F env config _ hobject, F.read_print]
  constructor
  · intro h
    have hinterval : F.ofInt 1 = F.ofInt (getInt64 (.int i)) :=
      hignored.symm.trans (congrArg Settings.timeSeriesInterval h)
    exact getInt64_eq_one (F.ofInt_one _ hinterval.symm)
  · rintro rfl
    have hone : getInt64 (.int 1) = 1 := rfl
    rw [hone, ← hignored]

/-! ## The configurations that survive -/

/-- The report of a monitor makes an equal monitor, and an integer interval is honoured,
exactly for the configurations that keep to what the reader and the writer share. -/
theorem configuration_round_trip_iff :
    RoundTrips F env config ∧ IntegerHonoured F env config ↔ Survives config := by
  rw [roundTrips_iff, precision_iff, sampling_iff, pretty_iff, integerHonoured_iff]
  constructor
  · rintro ⟨⟨hprecision, hsampling, hpretty⟩, hinterval⟩
    exact ⟨hprecision, hsampling, hpretty, hinterval⟩
  · rintro ⟨hprecision, hsampling, hpretty, hinterval⟩
    exact ⟨⟨hprecision, hsampling, hpretty⟩, hinterval⟩

end

/-- The integer with a sign and digits. -/
def readInteger : List Char → Int
  | '-' :: digits => -(Nat.ofDigitChars 10 digits 0 : Nat)
  | digits => (Nat.ofDigitChars 10 digits 0 : Nat)

theorem readInteger_repr (x : Int) : readInteger x.repr.toList = x := by
  have hvalue : ∀ n : Nat, Nat.ofDigitChars 10 n.repr.toList 0 = n := by
    intro n
    rw [Nat.toList_repr, Nat.ofDigitChars_ten_toDigits]
  cases x with
  | ofNat n =>
      have hdigits : Int.repr (Int.ofNat n) = n.repr := rfl
      rw [hdigits, readInteger]
      · rw [hvalue]
        rfl
      · intro digits hsign
        have hmem : '-' ∈ n.repr.toList := hsign ▸ List.mem_cons_self
        exact Lib.Separators.not_mem_repr (by decide) n hmem
  | negSucc n =>
      have hsign : Int.repr (Int.negSucc n) = "-" ++ (n + 1).repr := rfl
      have hlist : ("-" ++ (n + 1).repr).toList = '-' :: (n + 1).repr.toList :=
        String.toList_append
      rw [hsign, hlist, readInteger, hvalue]
      rfl

/-- Numbers that are all integers. -/
def integers : Doubles Int where
  read digits := readInteger digits.toList
  print := Int.repr
  ofInt i := i
  read_print := readInteger_repr
  ofInt_one _ h := h

/-- `{"statistics": {"precision": 3}}`. -/
def threeDigits : Json := .object [("statistics", .object [("precision", .int 3)])]

/-- A monitor that prints three digits is reported, and the next one prints nine. -/
theorem not_round_trip :
    ¬ ∀ (env : Environment) (config : Json),
      RoundTrips integers env config ∧ IntegerHonoured integers env config := by
  intro h
  have hprecision := congrArg Settings.precision (h .unset threeDigits).1
  revert hprecision
  decide

end Margo.Monitor.Configuration

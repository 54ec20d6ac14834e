import TinyChat.Effect.Assignments
import TinyChat.Utils.AppConfig
import TinyChat.Text.Numerals

/-! `AppConfig` of `utils/config.hpp` and its loading in `utils/config.cpp`: `init` installs
an empty instance and then fills it, setter by setter. -/
namespace TinyChat.Utils

open TinyChat.Effect

/-- What leaves `init`, or a setter or read inside it. -/
inductive Exception where
  | runtimeError (what : String)
  | invalidArgument (what : String)
  | ptreeError (what : String)
  | filesystemError (what : String)
  deriving DecidableEq

/-- A setter: the values it throws at, and the member it stores the others in. -/
structure Setter (Record Value : Type) extends Field Record Value where
  rejects : Value → Bool
  what : String

namespace Setter

variable {Record Part Value : Type}

def check (setter : Setter Record Value) (value : Value) : Except Exception Value :=
  if setter.rejects value then .error (.invalidArgument setter.what) else .ok value

/-- The setters that take any text but the empty one. -/
def nonempty (field : Field Record String) (what : String) : Setter Record String :=
  { field with rejects := String.isEmpty, what }

/-- The setters that take any number but zero. -/
def nonzero [OfNat Value 0] [DecidableEq Value] (field : Field Record Value) (what : String) :
    Setter Record Value :=
  { field with rejects := fun value => decide (value = 0), what }

def within (part : Record → Part) (update : Part → Record → Record)
    (part_update : ∀ inner record, part (update inner record) = inner)
    (setter : Setter Part Value) : Setter Record Value :=
  { setter.toField.within part update part_update with
    rejects := setter.rejects, what := setter.what }

end Setter

/-- `AppConfig::Database`. -/
structure AppConfig.Database where
  sqlconnpoolMaxSize : Int32 := 0
  server : String := ""
  user : String := ""
  passwd : String := ""
  db : String := ""
  deriving DecidableEq

namespace AppConfig.Database

def setSqlconnpoolMaxSize : Setter AppConfig.Database Int32 where
  get database := some database.sqlconnpoolMaxSize
  store size database := { database with sqlconnpoolMaxSize := size }
  get_store _ _ := rfl
  rejects size := decide (size ≤ 0)
  what := "sqlconnpool_max_size must be a positive integer."

def setServer : Setter AppConfig.Database String := .nonempty
  ⟨fun database => some database.server, fun server database => { database with server },
    fun _ _ => rfl⟩ "Database server cannot be empty."

def setUser : Setter AppConfig.Database String := .nonempty
  ⟨fun database => some database.user, fun user database => { database with user },
    fun _ _ => rfl⟩ "Database user cannot be empty."

def setPasswd : Setter AppConfig.Database String := .nonempty
  ⟨fun database => some database.passwd, fun passwd database => { database with passwd },
    fun _ _ => rfl⟩ "Database password cannot be empty."

def setDb : Setter AppConfig.Database String := .nonempty
  ⟨fun database => some database.db, fun db database => { database with db },
    fun _ _ => rfl⟩ "Database name cannot be empty."

end AppConfig.Database

/-- `AppConfig::Server`; `service_id_` is the member without an initial value. -/
structure AppConfig.Server where
  host : String := ""
  port : UInt16 := 0
  docRoot : String := ""
  ioThreads : UInt32 := 0
  workerThreads : UInt32 := 0
  jwtSecret : String := ""
  logFile : String := ""
  queueLimit : UInt32 := 0
  customEpoch : UInt64 := 0
  serviceId : Option UInt64 := none
  deriving DecidableEq

namespace AppConfig.Server

def setHost : Setter AppConfig.Server String := .nonempty
  ⟨fun server => some server.host, fun host server => { server with host },
    fun _ _ => rfl⟩ "Server host cannot be empty."

def setPort : Setter AppConfig.Server UInt16 := .nonzero
  ⟨fun server => some server.port, fun port server => { server with port },
    fun _ _ => rfl⟩ "Server port must be a non-zero value."

def setDocRoot : Setter AppConfig.Server String := .nonempty
  ⟨fun server => some server.docRoot, fun docRoot server => { server with docRoot },
    fun _ _ => rfl⟩ "Document root cannot be empty."

def setIoThreads : Setter AppConfig.Server UInt32 := .nonzero
  ⟨fun server => some server.ioThreads, fun ioThreads server => { server with ioThreads },
    fun _ _ => rfl⟩ "IO threads must be a positive integer."

def setWorkerThreads : Setter AppConfig.Server UInt32 := .nonzero
  ⟨fun server => some server.workerThreads,
    fun workerThreads server => { server with workerThreads }, fun _ _ => rfl⟩
  "Worker threads must be a positive integer."

def setJwtSecret : Setter AppConfig.Server String := .nonempty
  ⟨fun server => some server.jwtSecret, fun jwtSecret server => { server with jwtSecret },
    fun _ _ => rfl⟩ "JWT secret cannot be empty."

def setLogFile : Setter AppConfig.Server String := .nonempty
  ⟨fun server => some server.logFile, fun logFile server => { server with logFile },
    fun _ _ => rfl⟩ "Log file path cannot be empty."

def setQueueLimit : Setter AppConfig.Server UInt32 := .nonzero
  ⟨fun server => some server.queueLimit, fun queueLimit server => { server with queueLimit },
    fun _ _ => rfl⟩ "Queue limit must be a positive integer."

def setCustomEpoch : Setter AppConfig.Server UInt64 := .nonzero
  ⟨fun server => some server.customEpoch, fun customEpoch server => { server with customEpoch },
    fun _ _ => rfl⟩ "Custom epoch must be a non-zero value."

def setServiceId : Setter AppConfig.Server UInt64 where
  get server := server.serviceId
  store id server := { server with serviceId := some id }
  get_store _ _ := rfl
  rejects id := decide (id ≥ 1024)
  what := "Service ID must be less than 1024."

end AppConfig.Server

structure AppConfig where
  server : AppConfig.Server := {}
  database : AppConfig.Database := {}
  deriving DecidableEq

/-- The values of a property tree by their paths. -/
abbrev Tree := List (String × String)

/-- The translators of `boost::property_tree` with the texts of what they throw, and the
text of a path without a value. -/
structure PropertyTree where
  getInt : String → Except String Int32
  getUnsignedShort : String → Except String UInt16
  getUnsignedInt : String → Except String UInt32
  getU64 : String → Except String UInt64
  badPath : String → String

/-- What `read_ini` finds under a file name, or why there is no tree. -/
inductive IniFile where
  /-- `std::filesystem::exists` throws. -/
  | inaccessible (what : String)
  | missing
  | illFormed (what : String)
  | parsed (tree : Tree)

namespace AppConfig

section Reads

variable {Value : Type} (boost : PropertyTree)

/-- `config_tree.get` with a translator. -/
def readPath (translate : String → Except String Value) (path : String) (tree : Tree) :
    Except Exception Value :=
  match tree.lookup path with
  | none => .error (.ptreeError (boost.badPath path))
  | some data =>
    match translate data with
    | .error what => .error (.ptreeError what)
    | .ok value => .ok value

/-- One statement of `init`: a read whose value goes to a setter. -/
def setting (setter : Setter AppConfig Value) (translate : String → Except String Value)
    (path : String) : Assignment Tree AppConfig Exception where
  Value
  value tree := do setter.check (← readPath boost translate path tree)
  field := setter.toField

/-- A statement of `init` that hands a value of its own to the setter. -/
def constant (setter : Setter AppConfig Value) (value : Value) :
    Assignment Tree AppConfig Exception where
  Value
  value _ := setter.check value
  field := setter.toField

def inDatabase (setter : Setter AppConfig.Database Value) : Setter AppConfig Value :=
  setter.within AppConfig.database (fun database config => { config with database }) fun _ _ => rfl

def inServer (setter : Setter AppConfig.Server Value) : Setter AppConfig Value :=
  setter.within AppConfig.server (fun server config => { config with server }) fun _ _ => rfl

/-- `get<std::string>` takes the data as it is. -/
def getString (data : String) : Except String String := .ok data

/-- The document root of a build for Windows. -/
def windowsDocRoot : String := "D:\\program\\cpp\\proj\\tinychat_server\\doc\\assets\\"

open AppConfig.Database AppConfig.Server

/-- The statements up to the document root. -/
def firstSettings : List (Assignment Tree AppConfig Exception) :=
  [setting boost (inDatabase setSqlconnpoolMaxSize) boost.getInt "Database.sqlconnpool_max_size",
    setting boost (inDatabase setServer) getString "Database.server",
    setting boost (inDatabase setUser) getString "Database.user",
    setting boost (inDatabase setPasswd) getString "Database.passwd",
    setting boost (inDatabase setDb) getString "Database.db",
    setting boost (inServer setHost) getString "Server.host",
    setting boost (inServer setPort) boost.getUnsignedShort "Server.port"]

def docRootSetting : Assignment Tree AppConfig Exception :=
  setting boost (inServer setDocRoot) getString "Server.doc_root"

def lastSettings : List (Assignment Tree AppConfig Exception) :=
  [setting boost (inServer setIoThreads) boost.getUnsignedInt "Server.io_threads",
    setting boost (inServer setWorkerThreads) boost.getUnsignedInt "Server.worker_threads",
    setting boost (inServer setJwtSecret) getString "Server.jwt_secret",
    setting boost (inServer setLogFile) getString "Server.log_file",
    setting boost (inServer setQueueLimit) boost.getUnsignedInt "Server.queue_limit",
    setting boost (inServer setCustomEpoch) boost.getU64 "Server.custom_epoch",
    setting boost (inServer setServiceId) boost.getU64 "Server.service_id"]

/-- The settings of a configuration file. -/
def fileSettings : List (Assignment Tree AppConfig Exception) :=
  firstSettings boost ++ docRootSetting boost :: lastSettings boost

/-- The statements of `init` in their order, with or without `PLATFORM_WINDOWS`. -/
def settings (windows : Bool) : List (Assignment Tree AppConfig Exception) :=
  firstSettings boost ++
    (if windows then constant (inServer setDocRoot) windowsDocRoot else docRootSetting boost) ::
      lastSettings boost

end Reads

/-- The object that `instance_ptr_` points to. -/
structure Instance where
  address : Nat
  config : AppConfig
  deriving DecidableEq

/-- `instance_ptr_.reset(new AppConfig)`: the new object is made while the old one is still
there, so it is at another address. -/
def reset (instancePtr : Option Instance) : Instance where
  address := instancePtr.elim 0 fun old => old.address + 1
  config := {}

/-- `init` on what is under the file name: the line it prints or what it throws, and what
`instance_ptr_` holds afterwards. -/
def init (boost : PropertyTree) (windows : Bool) (filename : String) (file : IniFile)
    (instancePtr : Option Instance) : Except Exception String × Option Instance :=
  match file with
  | .inaccessible what => (.error (.filesystemError what), instancePtr)
  | .missing => (.error (.runtimeError ("Configuration file not found: " ++ filename)), instancePtr)
  | .illFormed what =>
    (.error (.runtimeError ("Failed to parse INI file '" ++ filename ++ "'. Reason: " ++ what)),
      instancePtr)
  | .parsed tree =>
    let made := reset instancePtr
    let (config, outcome) := assign tree (settings boost windows) made.config
    let installed := some { made with config }
    match outcome with
    | .ok _ => (.ok ("Configuration successfully loaded from " ++ filename), installed)
    | .error (.ptreeError what) =>
      (.error (.runtimeError ("Invalid configuration in '" ++ filename ++ "'. Reason: " ++ what)),
        installed)
    | .error exception => (.error exception, installed)

def get : Option Instance → Except Exception AppConfig
  | none => .error (.runtimeError "AppConfig has not been initialized. Call init() first.")
  | some found => .ok found.config

end AppConfig

/-- Every member is in the range of its setter. -/
structure AppConfig.Database.Checked (database : AppConfig.Database) : Prop where
  sqlconnpoolMaxSize : 0 < database.sqlconnpoolMaxSize
  server : database.server ≠ ""
  user : database.user ≠ ""
  passwd : database.passwd ≠ ""
  db : database.db ≠ ""

structure AppConfig.Server.Checked (server : AppConfig.Server) : Prop where
  host : server.host ≠ ""
  port : server.port ≠ 0
  docRoot : server.docRoot ≠ ""
  ioThreads : server.ioThreads ≠ 0
  workerThreads : server.workerThreads ≠ 0
  jwtSecret : server.jwtSecret ≠ ""
  logFile : server.logFile ≠ ""
  queueLimit : server.queueLimit ≠ 0
  customEpoch : server.customEpoch ≠ 0
  serviceId : ∃ id, server.serviceId = some id ∧ id < 1024

namespace AppConfig

structure Checked (config : AppConfig) : Prop where
  server : config.server.Checked
  database : config.database.Checked

/-- Every member holds what the file has for it. -/
def LoadedFrom (boost : PropertyTree) (tree : Tree) (config : AppConfig) : Prop :=
  ∀ setting ∈ fileSettings boost, setting.Holds tree config

/-- What a call of `init` leaves of `instance_ptr_` if it is all or nothing. -/
structure AllOrNothing (boost : PropertyTree) (file : IniFile) (before : Option Instance)
    (outcome : Except Exception String × Option Instance) : Prop where
  thrown : ∀ exception, outcome.1 = .error exception → outcome.2 = before
  returned : ∀ line, outcome.1 = .ok line → ∃ tree installed, file = .parsed tree ∧
    outcome.2 = some installed ∧ LoadedFrom boost tree installed.config ∧ installed.config.Checked

section Loading

variable {Value : Type} {boost : PropertyTree} {windows : Bool} {filename : String}
variable {file : IniFile} {before : Option Instance} {tree : Tree} {config : AppConfig}

theorem reset_ne : some { reset before with config } ≠ before := by
  cases before with
  | none => exact nofun
  | some old =>
    intro same
    have address : old.address + 1 = old.address := congrArg Instance.address (Option.some.inj same)
    omega

theorem settings_apart : (settings boost windows).Pairwise Assignment.Apart := by
  cases windows
  all_goals
    simp only [settings, firstSettings, lastSettings, docRootSetting, List.cons_append,
      List.nil_append, List.pairwise_cons, List.forall_mem_cons, List.not_mem_nil, false_imp_iff,
      implies_true, and_true, List.Pairwise.nil]
    and_intros <;> exact fun _ _ => rfl

theorem check_eq_ok_iff {setter : Setter AppConfig Value} {value checked : Value} :
    setter.check value = .ok checked ↔ setter.rejects value = false ∧ value = checked := by
  cases rejected : setter.rejects value <;> simp [Setter.check, rejected]

/-- What a setting has stored passes the check of its setter. -/
theorem accepted_of_holds {setter : Setter AppConfig Value} {translate : String → Except String Value}
    {path : String} {value : Value} (holds : (setting boost setter translate path).Holds tree config)
    (held : setter.get config = some value) : setter.rejects value = false := by
  obtain ⟨stored, found, same⟩ := holds
  obtain rfl : value = stored := Option.some.inj (held.symm.trans same)
  cases read : readPath boost translate path tree with
  | error exception => simp [setting, read, bind, Except.bind] at found
  | ok translated =>
    simp only [setting, read, bind, Except.bind] at found
    obtain ⟨accepted, rfl⟩ := check_eq_ok_iff.mp found
    exact accepted

theorem ne_empty_of_accepted {text : String} (accepted : text.isEmpty = false) : text ≠ "" := by
  rintro rfl
  cases accepted

/-- The settings of a build and of a file differ in the document root. -/
theorem forall_settings_iff {holds : Assignment Tree AppConfig Exception → Prop} :
    (∀ setting ∈ settings boost windows, holds setting) ↔
      (∀ setting ∈ firstSettings boost ++ lastSettings boost, holds setting) ∧
        holds (if windows then constant (inServer AppConfig.Server.setDocRoot) windowsDocRoot
          else docRootSetting boost) := by
  simp only [settings, List.forall_mem_append, List.forall_mem_cons]
  exact ⟨fun ⟨first, docRoot, last⟩ => ⟨⟨first, last⟩, docRoot⟩,
    fun ⟨⟨first, last⟩, docRoot⟩ => ⟨first, docRoot, last⟩⟩

theorem docRootSetting_value : (docRootSetting boost).value tree =
    match tree.lookup "Server.doc_root" with
    | none => .error (.ptreeError (boost.badPath "Server.doc_root"))
    | some text => (inServer AppConfig.Server.setDocRoot).check text := by
  cases found : tree.lookup "Server.doc_root" <;>
    simp [docRootSetting, setting, readPath, found, getString, bind, Except.bind]

theorem docRootSetting_holds_iff : (docRootSetting boost).Holds tree config ↔
    tree.lookup "Server.doc_root" = some config.server.docRoot ∧ config.server.docRoot ≠ "" := by
  constructor
  · intro holds
    have nonempty := ne_empty_of_accepted (accepted_of_holds holds rfl)
    obtain ⟨text, found, held⟩ := holds
    obtain rfl : config.server.docRoot = text := Option.some.inj held
    rw [docRootSetting_value] at found
    cases there : tree.lookup "Server.doc_root" with
    | none => simp [there] at found
    | some data =>
      simp only [there] at found
      exact ⟨congrArg some (check_eq_ok_iff.mp found).2, nonempty⟩
  · intro ⟨there, nonempty⟩
    refine ⟨config.server.docRoot, ?_, rfl⟩
    rw [docRootSetting_value, there]
    refine check_eq_ok_iff.mpr ⟨?_, rfl⟩
    change config.server.docRoot.isEmpty = false
    simp [nonempty]

theorem windowsDocRoot_passes :
    (inServer AppConfig.Server.setDocRoot).check windowsDocRoot = .ok windowsDocRoot := by decide

theorem constant_holds_iff :
    (constant (inServer AppConfig.Server.setDocRoot) windowsDocRoot).Holds tree config ↔
      config.server.docRoot = windowsDocRoot := by
  constructor
  · intro ⟨text, found, held⟩
    obtain rfl : windowsDocRoot = text := Except.ok.inj (windowsDocRoot_passes.symm.trans found)
    exact Option.some.inj held
  · exact fun same => ⟨windowsDocRoot, windowsDocRoot_passes, congrArg some same⟩

/-- A configuration that holds its settings is in the ranges of all setters. -/
theorem checked_of_holds (docRoot : config.server.docRoot ≠ "")
    (others : ∀ setting ∈ firstSettings boost ++ lastSettings boost, setting.Holds tree config) :
    config.Checked := by
  simp only [firstSettings, lastSettings, List.cons_append, List.nil_append,
    List.forall_mem_cons] at others
  obtain ⟨maxSize, dbServer, user, passwd, db, host, port, ioThreads, workerThreads, jwtSecret,
    logFile, queueLimit, customEpoch, serviceId, _⟩ := others
  constructor
  · constructor
    · exact ne_empty_of_accepted (accepted_of_holds host rfl)
    · exact of_decide_eq_false (accepted_of_holds port rfl)
    · exact docRoot
    · exact of_decide_eq_false (accepted_of_holds ioThreads rfl)
    · exact of_decide_eq_false (accepted_of_holds workerThreads rfl)
    · exact ne_empty_of_accepted (accepted_of_holds jwtSecret rfl)
    · exact ne_empty_of_accepted (accepted_of_holds logFile rfl)
    · exact of_decide_eq_false (accepted_of_holds queueLimit rfl)
    · exact of_decide_eq_false (accepted_of_holds customEpoch rfl)
    · obtain ⟨(id : UInt64), found, held⟩ := serviceId
      have accepted : decide (id ≥ 1024) = false := accepted_of_holds ⟨id, found, held⟩ held
      exact ⟨id, held, UInt64.not_le.mp (of_decide_eq_false accepted)⟩
  · constructor
    · exact Int32.not_le.mp (of_decide_eq_false (accepted_of_holds maxSize rfl))
    · exact ne_empty_of_accepted (accepted_of_holds dbServer rfl)
    · exact ne_empty_of_accepted (accepted_of_holds user rfl)
    · exact ne_empty_of_accepted (accepted_of_holds passwd rfl)
    · exact ne_empty_of_accepted (accepted_of_holds db rfl)

/-- An accepted configuration is checked, whatever it was loaded from. -/
theorem checked_of_settings (held : ∀ setting ∈ settings boost windows, setting.Holds tree config) :
    config.Checked := by
  obtain ⟨others, docRoot⟩ := forall_settings_iff.mp held
  refine checked_of_holds ?_ others
  cases windows with
  | false => exact (docRootSetting_holds_iff.mp docRoot).2
  | true =>
    rw [constant_holds_iff.mp docRoot]
    decide

/-- A tree either fills the new instance or leaves it half built in place. -/
theorem init_parsed (boost : PropertyTree) (windows : Bool) (filename : String) (tree : Tree)
    (before : Option Instance) :
    (∃ config, (∀ setting ∈ settings boost windows, setting.Holds tree config) ∧
      init boost windows filename (.parsed tree) before =
        (.ok ("Configuration successfully loaded from " ++ filename),
          some { reset before with config })) ∨
    ((∃ setting ∈ settings boost windows, ¬ setting.Accepts tree) ∧ ∃ exception config,
      init boost windows filename (.parsed tree) before =
        (.error exception, some { reset before with config })) := by
  rcases assign_cases tree (settings boost windows) (reset before).config with
    ⟨done, accepted⟩ | ⟨setting, member, fault, failed, same⟩
  · left
    refine ⟨(assign tree (settings boost windows) (reset before).config).1,
      holds_of_assign settings_apart accepted, ?_⟩
    simp only [init, done]
  · right
    have refused : ¬ setting.Accepts tree := by
      intro ⟨value, found⟩
      rw [failed] at found
      cases found
    refine ⟨⟨setting, member, refused⟩, ?_⟩
    cases fault with
    | ptreeError what =>
      simp only [init, same]
      exact ⟨_, _, rfl⟩
    | runtimeError what | invalidArgument what | filesystemError what =>
      simp only [init, same]
      exact ⟨_, _, rfl⟩

/-- The file has a value for every setting, and a build for Windows finds its own document
root in it. -/
def Suits (boost : PropertyTree) (windows : Bool) (tree : Tree) : Prop :=
  (∀ setting ∈ fileSettings boost, setting.Accepts tree) ∧
    (windows = true → tree.lookup "Server.doc_root" = some windowsDocRoot)

theorem suits_of_loaded (loaded : LoadedFrom boost tree config)
    (held : ∀ setting ∈ settings boost windows, setting.Holds tree config) :
    Suits boost windows tree := by
  refine ⟨fun setting member => (loaded setting member).accepts, fun built => ?_⟩
  subst built
  have constant := constant_holds_iff.mp (forall_settings_iff.mp held).2
  have docRoot := (@forall_settings_iff boost false _).mp loaded |>.2
  rw [(docRootSetting_holds_iff.mp docRoot).1, constant]

theorem Suits.loaded (suits : Suits boost windows tree)
    (held : ∀ setting ∈ settings boost windows, setting.Holds tree config) :
    LoadedFrom boost tree config := by
  cases windows with
  | false => exact held
  | true =>
    obtain ⟨others, docRoot⟩ := forall_settings_iff.mp held
    have same := constant_holds_iff.mp docRoot
    refine (@forall_settings_iff boost false _).mpr ⟨others, docRootSetting_holds_iff.mpr ?_⟩
    rw [same]
    exact ⟨suits.2 rfl, by decide⟩

theorem Suits.accepts (suits : Suits boost windows tree) :
    ∀ setting ∈ settings boost windows, setting.Accepts tree := by
  obtain ⟨others, docRoot⟩ := (@forall_settings_iff boost false _).mp suits.1
  refine forall_settings_iff.mpr ⟨others, ?_⟩
  cases windows with
  | false => exact docRoot
  | true => exact ⟨windowsDocRoot, windowsDocRoot_passes⟩

/-- For every previous instance and every content of the file, `init` is all or nothing
exactly if a tree that it could parse suits all settings. -/
theorem init_allOrNothing_iff (boost : PropertyTree) (windows : Bool) (filename : String)
    (file : IniFile) (before : Option Instance) :
    AllOrNothing boost file before (init boost windows filename file before) ↔
      ∀ tree, file = .parsed tree → Suits boost windows tree := by
  constructor
  · rintro ⟨thrown, returned⟩ tree rfl
    rcases init_parsed boost windows filename tree before with
      ⟨config, held, done⟩ | ⟨_, exception, config, failed⟩
    · rw [done] at returned
      obtain ⟨other, installed, same, found, loaded, _⟩ := returned _ rfl
      cases same
      cases found
      exact suits_of_loaded loaded held
    · rw [failed] at thrown
      exact absurd (thrown exception rfl) reset_ne
  · intro suits
    cases file with
    | inaccessible what | missing | illFormed what => exact ⟨fun _ _ => rfl, nofun⟩
    | parsed tree =>
      have suited := suits tree rfl
      rcases init_parsed boost windows filename tree before with
        ⟨config, held, done⟩ | ⟨⟨setting, member, refused⟩, _⟩
      · rw [done]
        have loaded := suited.loaded held
        exact ⟨nofun, fun _ _ => ⟨tree, _, rfl, rfl, loaded, checked_of_settings held⟩⟩
      · exact absurd (suited.accepts setting member) refused

theorem init_accepted {line : String} {installed : Instance}
    (accepted : init boost windows filename file before = (.ok line, some installed)) :
    installed.config.Checked := by
  cases file with
  | inaccessible what | missing | illFormed what => cases accepted
  | parsed tree =>
    rcases init_parsed boost windows filename tree before with ⟨config, held, done⟩ | ⟨_, _, _, failed⟩
    · rw [done] at accepted
      cases accepted
      exact checked_of_settings held
    · rw [failed] at accepted
      cases accepted

/-- After a failed `init` on a tree, `get()` returns the half-built configuration. -/
theorem get_of_refused (refused : ¬ ∀ setting ∈ settings boost windows, setting.Accepts tree) :
    ∃ exception config, (init boost windows filename (.parsed tree) before).1 = .error exception ∧
      get (init boost windows filename (.parsed tree) before).2 = .ok config := by
  rcases init_parsed boost windows filename tree before with
    ⟨config, held, _⟩ | ⟨_, exception, config, failed⟩
  · exact absurd (fun setting member => (held setting member).accepts) refused
  · exact ⟨exception, config, by rw [failed], by rw [failed]; rfl⟩

end Loading

end AppConfig

section Files

/-- The number of a text of digits. -/
def readDigits (text : String) : Option Nat :=
  if text ≠ "" ∧ text.toList.all Char.isDigit then some (Nat.ofDigitChars 10 text.toList 0) else none

/-- A translator to a type with the name and the number of values, on texts of digits. -/
def translateDigits {Value : Type} (typeName : String) (size : Nat) (make : Nat → Value)
    (text : String) : Except String Value :=
  match readDigits text with
  | some number =>
    if number < size then .ok (make number)
    else .error ("conversion of data to type \"" ++ typeName ++ "\" failed")
  | none => .error ("conversion of data to type \"" ++ typeName ++ "\" failed")

/-- The translators as they are on numbers without a sign. -/
def PropertyTree.decimal : PropertyTree where
  getInt := translateDigits "i" 2147483648 Int32.ofNat
  getUnsignedShort := translateDigits "t" UInt16.size UInt16.ofNat
  getUnsignedInt := translateDigits "j" UInt32.size UInt32.ofNat
  getU64 := translateDigits "m" UInt64.size UInt64.ofNat
  badPath path := "No such node (" ++ path ++ ")"

/-- `doc/config.ini`. -/
def configIni : Tree :=
  [("Server.host", "127.0.0.1"), ("Server.port", "8080"),
    ("Server.doc_root", "/home/ycx/proj/tinychat_server/doc"), ("Server.io_threads", "6"),
    ("Server.worker_threads", "20"), ("Server.jwt_secret", "JWT_SECRET_KEY_2025_6_20"),
    ("Server.log_file", "../../doc/logs/tinychat_server.log"), ("Server.queue_limit", "35"),
    ("Server.custom_epoch", "1717200000000"), ("Server.service_id", "0"),
    ("Database.server", "tcp://localhost:3306"), ("Database.user", "root"),
    ("Database.passwd", "123RootP"), ("Database.db", "tinychat"),
    ("Database.sqlconnpool_max_size", "20")]

/-- The configuration of `doc/config.ini`. -/
def AppConfig.documented : AppConfig where
  server :=
    { host := "127.0.0.1"
      port := 8080
      docRoot := "/home/ycx/proj/tinychat_server/doc"
      ioThreads := 6
      workerThreads := 20
      jwtSecret := "JWT_SECRET_KEY_2025_6_20"
      logFile := "../../doc/logs/tinychat_server.log"
      queueLimit := 35
      customEpoch := 1717200000000
      serviceId := some 0 }
  database :=
    { sqlconnpoolMaxSize := 20
      server := "tcp://localhost:3306"
      user := "root"
      passwd := "123RootP"
      db := "tinychat" }

theorem AppConfig.init_configIni : init .decimal false "config.ini" (.parsed configIni) none =
    (.ok "Configuration successfully loaded from config.ini", some ⟨0, .documented⟩) := by decide

end Files

/-- A file without settings: the call throws and yet installs an instance. -/
theorem AppConfig.init_empty_not_allOrNothing :
    ¬ ∀ (boost : PropertyTree) (windows : Bool) (filename : String) (file : IniFile)
      (before : Option Instance),
      AllOrNothing boost file before (init boost windows filename file before) := by
  intro claimed
  have unchanged := (claimed .decimal false "config.ini" (.parsed []) none).thrown _ rfl
  cases unchanged

/-- A checked configuration of the database, as its consumers take it. -/
def AppConfig.Database.toChecked (database : AppConfig.Database) (checked : database.Checked) :
    Utils.Database where
  sqlconnpoolMaxSize := database.sqlconnpoolMaxSize.toInt.toNat
  server := database.server
  user := database.user
  passwd := database.passwd
  db := database.db
  maxSizePositive := by
    have positive := Int32.lt_iff_toInt_lt.mp checked.sqlconnpoolMaxSize
    rw [Int32.toInt_zero] at positive
    omega
  serverNonempty := checked.server
  userNonempty := checked.user
  passwdNonempty := checked.passwd
  dbNonempty := checked.db

end TinyChat.Utils

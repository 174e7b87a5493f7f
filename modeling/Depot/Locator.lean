import Depot.Host
import Depot.Placeholder
import Depot.Settings
import Depot.Text.Blank

/-!
# Locating the local Maven repository

The location comes from the first source that decides: an override, the settings file of the user,
the settings file of the installation, and last a directory below the home directory. A settings
file that is missing, or that gives no location or a blank one, decides nothing; one that cannot be
read or understood is an error. Placeholders in an override and in a settings file are expanded.
-/

namespace Depot

/-- Why the local repository cannot be located. -/
inductive LocatorError where
  | unreadable (file : Path) (error : FileError)
  | malformed (file : Path) (fault : Xml.Fault)
  | unresolved (key value : String)
  | noHome
  deriving DecidableEq

/-- The wording of an error. -/
def LocatorError.message : LocatorError → String
  | .unreadable file error =>
    s!"Unable to read local Maven settings file {file.text}: {error.message}"
  | .malformed file fault =>
    s!"Unable to parse local Maven settings file {file.text}: {fault.message}"
  | .unresolved key value => s!"Cannot resolve placeholder '{key}' in value '{value}'"
  | .noHome => "Cannot determine the user home directory to locate the local Maven repository"

/-- What the local repository is located by. -/
structure Locator where
  override : Option String := none
  home : Option Path := none
  mavenHome : Option Path := none
  environment : List (String × String) := []
  properties : List (String × String) := []
  deriving Inhabited

namespace Locator

/-! ### Placeholders -/

/-- The text behind another one that it begins with. -/
def dropFront? (front s : String) : Option String :=
  if front.toList.isPrefixOf s.toList then some (String.ofList (s.toList.drop front.length))
  else none

/-- The value of a property; the home directory is one. -/
def property? (l : Locator) (name : String) : Option String :=
  if name = "user.home" then l.home.map Path.text else l.properties.lookup name

/-- The value of the key of a placeholder: an environment variable or a property. -/
def value? (l : Locator) (key : String) : Option String :=
  match dropFront? "env." key with
  | some name => l.environment.lookup name
  | none => l.property? ((dropFront? "sys." key).getD key)

/-- A text with its placeholders expanded. -/
def expand (l : Locator) (text : String) : Except LocatorError String :=
  (Placeholder.expand l.value? text).mapError fun key => .unresolved key text

/-! ### Sources -/

/-- The settings file of the user. -/
def userSettings? (l : Locator) : Option Path :=
  l.home.map fun home => (home.join ⟨".m2"⟩).join ⟨"settings.xml"⟩

/-- The settings file of the installation. -/
def globalSettings? (l : Locator) : Option Path :=
  l.mavenHome.map fun dir => (dir.join ⟨"conf"⟩).join ⟨"settings.xml"⟩

/-- The location that a settings file gives, trimmed; none if the file is missing or gives no
location or a blank one. -/
def readSettings (h : Host) (file : Path) : Except LocatorError (Option String) :=
  if !h.holds file then .ok none
  else
    match h.readText file with
    | .error e => .error (.unreadable file e)
    | .ok text =>
      match Settings.location? text with
      | .error f => .error (.malformed file f)
      | .ok location => .ok ((location.map Text.trim).filter (· != ""))

/-- The location that the first deciding settings file gives. -/
def firstSetting (h : Host) : List Path → Except LocatorError (Option String)
  | [] => .ok none
  | file :: rest =>
    match readSettings h file with
    | .error e => .error e
    | .ok (some location) => .ok (some location)
    | .ok none => firstSetting h rest

/-- The settings files in the order in which they are asked. -/
def settingsFiles (l : Locator) : List Path :=
  l.userSettings?.toList ++ l.globalSettings?.toList

/-- The location without any configuration. -/
def defaultLocation (l : Locator) : Except LocatorError Path :=
  match l.home with
  | some home => .ok ((home.join ⟨".m2"⟩).join ⟨"repository"⟩)
  | none => .error .noHome

/-- The location of the local repository. -/
def locate (l : Locator) (h : Host) : Except LocatorError Path :=
  match l.override with
  | some location => (l.expand location).map Path.mk
  | none =>
    match firstSetting h l.settingsFiles with
    | .error e => .error e
    | .ok (some location) => (l.expand location).map Path.mk
    | .ok none => l.defaultLocation

/-! ### The locator of a host -/

/-- The properties of a host whose variables have some texts. The working directory is one unless it
was removed. -/
def propertiesOf (h : Host) (texts : List (String × String)) : List (String × String) :=
  let user := (texts.lookup "USER").orElse fun _ => texts.lookup "USERNAME"
  (h.workingDirectory.path.toOption.map fun dir => ("user.dir", dir.text)).toList
    ++ (user.map fun u => ("user.name", u)).toList
    ++ [("os.name", "linux"), ("os.arch", "x86_64"), ("file.separator", "/")]

/-- The locator of a host whose variables have some texts. -/
def ofVariables (h : Host) (texts : List (String × String)) : Locator where
  override := texts.lookup "MAVEN_REPO_LOCAL"
  home := h.home?
  mavenHome := (texts.lookup "M2_HOME").map Path.mk
  environment := texts
  properties := propertiesOf h texts

/-- The locator that the environment of a host sets up, which has to be Unicode. -/
def ofHost (h : Host) : Except Panic Locator :=
  h.readTexts.map (ofVariables h)

end Locator

end Depot

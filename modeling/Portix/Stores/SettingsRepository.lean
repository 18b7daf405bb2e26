import Portix.Lib.Json
import Portix.Lib.Persist
import Portix.Lib.Update

/-!
# Settings

`SettingsRepository` of `settings_repository.dart`, and what its callers write: `saveTerminalSetting`
(`app_menu.dart`), `saveTerminalSnippets` (`terminal_snippets.dart`) and `_saveTerminalTheme`
(`terminal_panel.dart`).
-/

namespace Portix.Stores

open Lib

/-- The settings as texts, one for each key. -/
structure Settings where
  entries : List (String × String)
  distinct : (entries.map Prod.fst).Nodup

namespace Settings

def empty : Settings := ⟨[], List.nodup_nil⟩

def get (settings : Settings) (key : String) : Option String := settings.entries.lookup key

def set (settings : Settings) (key value : String) : Settings :=
  ⟨putEntry key (fun _ => value) settings.entries, nodup_putEntry settings.distinct⟩

def remove (settings : Settings) (key : String) : Settings :=
  ⟨settings.entries.filter fun entry => entry.1 ≠ key,
    settings.distinct.sublist (List.filter_sublist.map Prod.fst)⟩

def ofEntries (entries : JsonMap) : Settings :=
  entries.foldl (fun settings entry => match entry.2.toText? with
    | some text => settings.set entry.1 text
    | none => settings) empty

end Settings

def loadSettings (readDouble : String → String) : Option (List UInt8) → Option Settings
  | none => some .empty
  | some bytes => (ofUtf8 bytes).bind fun content =>
    if dartTrim content = "" then some .empty
    else match Json.decode readDouble content with
      | some (.map entries) => some (.ofEntries entries)
      | _ => none

def settingsText (settings : Settings) : String :=
  Json.encode Json.indented (.map (settings.entries.map fun entry => (entry.1, .string entry.2)))

def settingsBytes (settings : Settings) : List UInt8 := utf8 (settingsText settings)

def terminalSnippetsSettingKey : String := "terminal.snippets"

def terminalThemeSettingKey : String := "general.terminal_theme"

structure TerminalSnippet where
  name : String
  command : String

def snippetsText (snippets : List TerminalSnippet) : String :=
  Json.encode Json.compact (.list (snippets.map fun snippet =>
    .map [("name", .string snippet.name), ("command", .string snippet.command)]))

inductive SettingWrite where
  | terminalSetting (key : String) (value : Option String)
  | terminalSnippets (snippets : List TerminalSnippet)
  | terminalTheme (name : String)

namespace SettingWrite

def key : SettingWrite → String
  | .terminalSetting key _ => key
  | .terminalSnippets _ => terminalSnippetsSettingKey
  | .terminalTheme _ => terminalThemeSettingKey

def value : SettingWrite → Option String
  | .terminalSetting _ value => value
  | .terminalSnippets snippets => some (snippetsText snippets)
  | .terminalTheme name => some name

def apply : SettingWrite → Settings → Settings
  | .terminalSetting key none, settings => settings.remove key
  | .terminalSetting key (some value), settings => settings.set key value
  | .terminalSnippets snippets, settings =>
    settings.set terminalSnippetsSettingKey (snippetsText snippets)
  | .terminalTheme name, settings => settings.set terminalThemeSettingKey name

end SettingWrite

end Portix.Stores

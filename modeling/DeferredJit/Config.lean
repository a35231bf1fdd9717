import DeferredJit.Request

/-! Configuration of an engine, and the words for its choices. -/

set_option autoImplicit false

namespace DeferredJit

/-- When a compiled handle makes executables for the operand shapes it meets. -/
inductive SpecializationMode where
  | disabled
  /-- For executables with a dynamic operand dimension. -/
  | enabled
  /-- For every executable. -/
  | always
  deriving DecidableEq, Repr

namespace SpecializationMode

def all : List SpecializationMode := [disabled, enabled, always]

def name : SpecializationMode → String
  | disabled => "disabled"
  | enabled => "enabled"
  | always => "always"

def describe : SpecializationMode → String
  | disabled => "Disabled"
  | enabled => "Enabled"
  | always => "Always"

def ofName? (text : String) : Option SpecializationMode := all.find? (·.name == text)

/-- Blanks around the word and the case of its ASCII letters do not matter. An unknown word comes
back as it was understood. -/
def parse (text : String) : Except String SpecializationMode :=
  match (Text.trim text).map Char.toLower with
  | "disabled" | "off" => .ok disabled
  | "enabled" | "on" => .ok enabled
  | "always" => .ok always
  | other => .error other

def unknown (word : String) : String := "unknown specialization mode `" ++ word ++ "`"

end SpecializationMode

namespace KeyPolicy

def all : List KeyPolicy := [content, location]

def name : KeyPolicy → String
  | content => "content"
  | location => "location"

def describe : KeyPolicy → String
  | content => "Content"
  | location => "Location"

def ofName? (text : String) : Option KeyPolicy := all.find? (·.name == text)

/-- As `SpecializationMode.parse`. -/
def parse (text : String) : Except String KeyPolicy :=
  match (Text.trim text).map Char.toLower with
  | "content" => .ok content
  | "location" => .ok location
  | other => .error other

def unknown (word : String) : String := "unknown key policy `" ++ word ++ "`"

end KeyPolicy

structure Config where
  workerThreads : Nat := 1
  keyPolicy : KeyPolicy := .content
  specialization : SpecializationMode := .enabled
  maxSpecializations : Nat := 10
  deriving DecidableEq, Repr

namespace Config

def describe (config : Config) : String :=
  Text.record "JitConfig" [("worker_threads", toString config.workerThreads),
    ("key_policy", config.keyPolicy.describe), ("specialization", config.specialization.describe),
    ("max_specializations", toString config.maxSpecializations)]

end Config

end DeferredJit

import DeferredJit.Config
import DeferredJit.Toml.Document

/-! Configuration from a document or a file that holds one. Entries with other names are ignored;
an entry with a wrong value spoils the document. -/

set_option autoImplicit false

namespace DeferredJit.Config

/-- The value of an entry, `default` when there is none. -/
def field {α : Type} (entries : Toml.Entries) (name : String) (default : α)
    (read : Toml.Node → Option α) : Option α :=
  match entries.lookup name with
  | none => some default
  | some node => read node

def word : Toml.Node → Option Nat
  | .integer value => if 0 ≤ value then some value.toNat else none
  | _ => none

def isEmpty : Toml.Node → Bool
  | .array [] | .inlineTable [] | .table _ [] => true
  | _ => false

/-- A choice is a word, or a table with that word as its only name and nothing under it. -/
def choice {α : Type} (ofName? : String → Option α) : Toml.Node → Option α
  | .text name => ofName? name
  | .inlineTable [(name, node)] | .table _ [(name, node)] =>
    if isEmpty node then ofName? name else none
  | _ => none

def ofDocument (text : String) : Option Config := do
  let entries ← Toml.parse text
  let defaults : Config := {}
  let workers ← field entries "worker_threads" defaults.workerThreads word
  let policy ← field entries "key_policy" defaults.keyPolicy (choice KeyPolicy.ofName?)
  let mode ← field entries "specialization" defaults.specialization
    (choice SpecializationMode.ofName?)
  let cap ← field entries "max_specializations" defaults.maxSpecializations word
  return { workerThreads := max workers 1, keyPolicy := policy, specialization := mode,
           maxSpecializations := cap }

inductive FileFault where
  | unreadable
  | malformed
  deriving DecidableEq, Repr

def FileFault.message (path : String) : FileFault → String
  | unreadable => "failed to read config file " ++ path
  | malformed => "failed to parse config file " ++ path

/-- From the bytes of a file, if there is one. -/
def ofFile (content : Option Bytes) : Except FileFault Config :=
  match content.bind fun bytes => String.fromUTF8? (ByteArray.mk bytes.toArray) with
  | none => .error .unreadable
  | some text =>
    match ofDocument text with
    | some config => .ok config
    | none => .error .malformed

end DeferredJit.Config

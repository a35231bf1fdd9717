import DeferredJit.Config
import DeferredJit.Text.Decimal

/-! Configuration from named variables. A variable that is missing or has no sensible value leaves
its default in place. -/

set_option autoImplicit false

namespace DeferredJit.Config

def setting {α : Type} (lookup : String → Option String) (name : String)
    (parse : String → Option α) : Option α := do
  let text ← lookup name
  parse (Text.trim text)

def ofVariables (lookup : String → Option String) : Config :=
  let defaults : Config := {}
  let workers := setting lookup "KERNJIT_WORKERS" Text.parseWord
  let policy := setting lookup "KERNJIT_KEY_POLICY" fun text => (KeyPolicy.parse text).toOption
  let mode := setting lookup "KERNJIT_SPECIALIZATION" fun text =>
    (SpecializationMode.parse text).toOption
  let cap := setting lookup "KERNJIT_MAX_SPECIALIZATIONS" Text.parseWord
  { workerThreads := (workers.map (max · 1)).getD defaults.workerThreads
    keyPolicy := policy.getD defaults.keyPolicy
    specialization := mode.getD defaults.specialization
    maxSpecializations := cap.getD defaults.maxSpecializations }

end DeferredJit.Config

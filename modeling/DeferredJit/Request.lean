import DeferredJit.Digest.Sha1
import DeferredJit.Failure
import DeferredJit.Text.Blank

/-! Compilation requests: what to compile, with which options, and under which key the result is
shared. -/

set_option autoImplicit false

namespace DeferredJit

/-- Further options by name, kept in the order of their names. -/
structure Extras where
  entries : List (String × String)
  ordered : entries.Pairwise (fun first second => first.1 < second.1)
  deriving DecidableEq

namespace Extras

def empty : Extras := ⟨[], .nil⟩

/-- Put an entry where its name belongs, in place of an entry of that name. -/
def place (name value : String) : List (String × String) → List (String × String)
  | [] => [(name, value)]
  | first :: rest =>
    if name < first.1 then (name, value) :: first :: rest
    else if name = first.1 then (name, value) :: rest
    else first :: place name value rest

theorem mem_place {name value : String} {entries : List (String × String)}
    {entry : String × String} (member : entry ∈ place name value entries) :
    entry = (name, value) ∨ entry ∈ entries := by
  induction entries with
  | nil => simpa [place] using member
  | cons first rest ih =>
    unfold place at member
    split at member
    · simpa using member
    · split at member
      · rcases List.mem_cons.1 member with same | later
        · exact .inl same
        · exact .inr (List.mem_cons_of_mem _ later)
      · rcases List.mem_cons.1 member with rfl | later
        · exact .inr List.mem_cons_self
        · exact (ih later).imp_right (List.mem_cons_of_mem _)

theorem place_ordered (name value : String) {entries : List (String × String)}
    (ordered : entries.Pairwise (fun first second => first.1 < second.1)) :
    (place name value entries).Pairwise (fun first second => first.1 < second.1) := by
  induction entries with
  | nil => simp [place]
  | cons first rest ih =>
    obtain ⟨before, ordered⟩ := List.pairwise_cons.1 ordered
    unfold place
    split
    · rename_i smaller
      refine List.pairwise_cons.2 ⟨fun entry member => ?_, List.pairwise_cons.2 ⟨before, ordered⟩⟩
      rcases List.mem_cons.1 member with rfl | later
      · exact smaller
      · exact String.lt_trans smaller (before entry later)
    · rename_i notSmaller
      split
      · rename_i same
        exact List.pairwise_cons.2 ⟨fun entry member => same ▸ before entry member, ordered⟩
      · rename_i different
        refine List.pairwise_cons.2 ⟨fun entry member => ?_, ih ordered⟩
        rcases mem_place member with rfl | later
        · exact Std.lt_of_le_of_ne (String.not_lt.1 notSmaller) (Ne.symm different)
        · exact before entry later

def insert (extras : Extras) (name value : String) : Extras :=
  ⟨place name value extras.entries, place_ordered name value extras.ordered⟩

def ofList (entries : List (String × String)) : Extras :=
  entries.foldl (fun extras entry => extras.insert entry.1 entry.2) empty

end Extras

structure CompileOptions where
  level : UInt8 := 2
  vectorize : Bool := true
  extras : Extras := .empty
  deriving DecidableEq

/-- A text preceded by its length in bytes, so that the end of one never runs into the next. -/
def framed (text : String) : Bytes := littleEndian 8 (utf8 text).length ++ utf8 text

def CompileOptions.encoding (options : CompileOptions) : Bytes :=
  [options.level, if options.vectorize then 1 else 0] ++
    littleEndian 8 options.extras.entries.length ++
    options.extras.entries.flatMap fun (name, value) => framed name ++ framed value

/-- How requests share compiled handles. -/
inductive KeyPolicy where
  /-- By source, entry point and options. -/
  | content
  /-- By call site; a request without one goes by content. -/
  | location
  deriving DecidableEq, Repr

structure CacheKey where
  text : String
  deriving DecidableEq, Repr

def CacheKey.ofLocation (location : UInt64) : CacheKey :=
  ⟨"loc:" ++ Text.hexPadded 16 location.toNat⟩

structure Request where
  source : String
  entry : String
  options : CompileOptions
  location : Option UInt64
  deriving DecidableEq

namespace Request

/-- The bytes that stand for everything a compilation depends on. -/
def encoding (request : Request) : Bytes :=
  framed request.source ++ framed request.entry ++ request.options.encoding

def fingerprint (request : Request) : CacheKey := ⟨Text.hexBytes (Sha1.digest request.encoding)⟩

def key (request : Request) : KeyPolicy → CacheKey
  | .content => request.fingerprint
  | .location =>
    match request.location with
    | some location => .ofLocation location
    | none => request.fingerprint

/-- What no compiler could accept. -/
inductive Fault where
  | noEntry
  | noSource
  deriving DecidableEq, Repr

def Fault.message : Fault → String
  | noEntry => "compiled kernel must name exactly one entry point"
  | noSource => "compilation source is empty"

def Fault.failure (fault : Fault) : Failure := .compilation fault.message

def validate (request : Request) : Except Fault Unit :=
  if Text.allBlank request.entry then .error .noEntry
  else if Text.allBlank request.source then .error .noSource
  else .ok ()

end Request

end DeferredJit

import DeferredJit.Request
import Mathlib.Algebra.Ring.Nat

/-! Which requests share a key. The bytes that stand for a request can be read in one way only, because
every part says itself where it ends; so, as far as the digest tells these bytes apart, the key by content
is that of one source, entry point and set of options. Keys by call site are of another form.
-/

set_option autoImplicit false

namespace DeferredJit

/-! ## Encodings that say where they end -/

/-- What is encoded, and where its encoding ends, can be told from any bytes that begin with it. -/
def SelfDelimiting {α : Type} (fits : α → Prop) (encode : α → Bytes) : Prop :=
  ∀ ⦃first second : α⦄ ⦃rest others : Bytes⦄, fits first → fits second →
    encode first ++ rest = encode second ++ others → first = second ∧ rest = others

namespace SelfDelimiting

variable {α β : Type} {fits : α → Prop} {encode : α → Bytes}

/-- Nothing needs to follow. -/
theorem injective (delimiting : SelfDelimiting fits encode) {first second : α} (fit : fits first)
    (also : fits second) (same : encode first = encode second) : first = second := by
  have padded : encode first ++ [] = encode second ++ [] := by rw [same]
  exact (delimiting fit also padded).1

/-- One after the other. -/
theorem pair {fitsToo : β → Prop} {encodeToo : β → Bytes} (delimiting : SelfDelimiting fits encode)
    (delimitingToo : SelfDelimiting fitsToo encodeToo) :
    SelfDelimiting (fun both : α × β => fits both.1 ∧ fitsToo both.2)
      (fun both => encode both.1 ++ encodeToo both.2) := by
  rintro ⟨left, right⟩ ⟨otherLeft, otherRight⟩ rest others ⟨fitLeft, fitRight⟩ ⟨alsoLeft, alsoRight⟩ same
  simp only [List.append_assoc] at same
  obtain ⟨rfl, tails⟩ := delimiting fitLeft alsoLeft same
  obtain ⟨rfl, rests⟩ := delimitingToo fitRight alsoRight tails
  exact ⟨rfl, rests⟩

/-- As many of them as are known to be there. -/
theorem flatMap_append (delimiting : SelfDelimiting fits encode) {first second : List α} {rest others : Bytes}
    (length : first.length = second.length) (fit : ∀ item ∈ first, fits item) (also : ∀ item ∈ second, fits item)
    (same : first.flatMap encode ++ rest = second.flatMap encode ++ others) : first = second ∧ rest = others := by
  -- Where one item ends is where the next begins.
  induction first generalizing second with
  | nil =>
    obtain rfl := List.length_eq_zero_iff.1 length.symm
    exact ⟨rfl, same⟩
  | cons head tail ih =>
    cases second with
    | nil => cases length
    | cons other more =>
      simp only [List.flatMap_cons, List.append_assoc] at same
      obtain ⟨rfl, tails⟩ := delimiting (fit head List.mem_cons_self) (also other List.mem_cons_self) same
      obtain ⟨rfl, rests⟩ := ih (Nat.succ.inj length) (fun item member => fit item (List.mem_cons_of_mem _ member))
        (fun item member => also item (List.mem_cons_of_mem _ member)) tails
      exact ⟨rfl, rests⟩

end SelfDelimiting

theorem littleEndian_inj {width first second : Nat} (fits : first < capacity width) (also : second < capacity width)
    (same : littleEndian width first = littleEndian width second) : first = second := by
  rw [← ofLittleEndian_littleEndian width first fits, same, ofLittleEndian_littleEndian width second also]

theorem utf8_injective {first second : String} (same : utf8 first = utf8 second) : first = second := by
  apply String.toByteArray_inj.1
  apply ByteArray.ext
  exact Array.toList_inj.1 same

/-- A list that is not too long for its length to be written in eight bytes. -/
def Countable {α : Type} (items : List α) : Prop := items.length < capacity 8

instance {α : Type} (items : List α) : Decidable (Countable items) :=
  inferInstanceAs (Decidable (items.length < capacity 8))

/-- A number before a list that it counts. -/
theorem count_append {α β : Type} {items : List α} {others : List β} {rest more : Bytes} (fit : Countable items)
    (also : Countable others) (same : littleEndian 8 items.length ++ rest = littleEndian 8 others.length ++ more) :
    items.length = others.length ∧ rest = more := by
  obtain ⟨counts, rests⟩ := List.append_inj same (by simp)
  exact ⟨littleEndian_inj fit also counts, rests⟩

theorem framed_selfDelimiting : SelfDelimiting (fun text => Countable (utf8 text)) framed := by
  intro first second rest others fit also same
  simp only [framed, List.append_assoc] at same
  obtain ⟨length, tails⟩ := count_append fit also same
  obtain ⟨bytes, rests⟩ := List.append_inj tails length
  exact ⟨utf8_injective bytes, rests⟩

/-! ## Requests -/

namespace Extras

/-- Names, values and the number of entries are not too long to be counted. -/
structure Addressable (extras : Extras) : Prop where
  entries : Countable extras.entries
  texts : ∀ entry ∈ extras.entries, Countable (utf8 entry.1) ∧ Countable (utf8 entry.2)

theorem ext {first second : Extras} (same : first.entries = second.entries) : first = second := by
  cases first
  cases second
  cases same
  rfl

end Extras

theorem CompileOptions.encoding_selfDelimiting :
    SelfDelimiting (fun options : CompileOptions => options.extras.Addressable) CompileOptions.encoding := by
  rintro ⟨level, vectorize, extras⟩ ⟨otherLevel, otherVectorize, otherExtras⟩ rest others fit also same
  simp only [encoding, List.append_assoc, List.cons_append, List.nil_append, List.cons.injEq] at same
  obtain ⟨rfl, flags, counted⟩ := same
  obtain ⟨length, tails⟩ := count_append fit.entries also.entries counted
  obtain ⟨entries, rests⟩ := (framed_selfDelimiting.pair framed_selfDelimiting).flatMap_append length
    fit.texts also.texts tails
  obtain rfl := Extras.ext entries
  have flag : vectorize = otherVectorize := by
    revert flags
    cases vectorize <;> cases otherVectorize <;> simp
  exact ⟨by rw [flag], rests⟩

namespace Request

/-- No part of the request is too long to be counted. -/
structure Addressable (request : Request) : Prop where
  source : Countable (utf8 request.source)
  entry : Countable (utf8 request.entry)
  extras : request.options.extras.Addressable

/-- What a compilation depends on. -/
def content (request : Request) : (String × String) × CompileOptions :=
  ((request.source, request.entry), request.options)

theorem encoding_inj {first second : Request} (fit : first.Addressable) (also : second.Addressable)
    (same : first.encoding = second.encoding) : first.content = second.content :=
  ((framed_selfDelimiting.pair framed_selfDelimiting).pair CompileOptions.encoding_selfDelimiting).injective
    ⟨⟨fit.source, fit.entry⟩, fit.extras⟩ ⟨⟨also.source, also.entry⟩, also.extras⟩ same

theorem encoding_congr {first second : Request} (same : first.content = second.content) :
    first.encoding = second.encoding := by
  obtain ⟨texts, options⟩ := Prod.mk.inj same
  obtain ⟨source, entry⟩ := Prod.mk.inj texts
  unfold encoding
  rw [source, entry, options]

theorem content_eq_iff {first second : Request} : first.content = second.content ↔
    first.source = second.source ∧ first.entry = second.entry ∧ first.options.level = second.options.level ∧
      first.options.vectorize = second.options.vectorize ∧ first.options.extras = second.options.extras := by
  obtain ⟨source, entry, ⟨level, vectorize, extras⟩, location⟩ := first
  obtain ⟨otherSource, otherEntry, ⟨otherLevel, otherVectorize, otherExtras⟩, otherLocation⟩ := second
  simp [content, and_assoc]

end Request

/-! ## Texts of keys -/

namespace Text

theorem hexBytes_injective {first second : Bytes} (same : hexBytes first = hexBytes second) : first = second := by
  apply Option.some.inj
  rw [← bytesOfHex_hexBytes first, same, bytesOfHex_hexBytes second]

theorem hexDigit_inj {first second : Nat} (fits : first < 16) (also : second < 16)
    (same : hexDigit first = hexDigit second) : first = second := by
  apply Option.some.inj
  rw [← hexValue_hexDigit first fits, same, hexValue_hexDigit second also]

/-- Digits tell numbers apart that have no more of them. -/
theorem hexDigits_inj {width first second : Nat} (fits : first < 16 ^ width) (also : second < 16 ^ width)
    (same : hexDigits width first = hexDigits width second) : first = second := by
  induction width generalizing first second with
  | zero => simp at fits also; omega
  | succ width ih =>
    obtain ⟨upper, lower⟩ := List.append_inj' same rfl
    have digit := hexDigit_inj (Nat.mod_lt first (by decide)) (Nat.mod_lt second (by decide)) (List.singleton_inj.1 lower)
    rw [Nat.pow_succ] at fits also
    have quotient := ih (by omega : first / 16 < 16 ^ width) (by omega : second / 16 < 16 ^ width) upper
    omega

theorem hexPadded_inj {width first second : Nat} (fits : first < 16 ^ width) (also : second < 16 ^ width)
    (same : hexPadded width first = hexPadded width second) : first = second := by
  apply hexDigits_inj fits also
  exact String.ofList_injective same

end Text

namespace CacheKey

theorem ofLocation_injective {first second : UInt64} (same : ofLocation first = ofLocation second) :
    first = second := by
  have texts : "loc:" ++ Text.hexPadded 16 first.toNat = "loc:" ++ Text.hexPadded 16 second.toNat :=
    congrArg CacheKey.text same
  have digits : Text.hexPadded 16 first.toNat = Text.hexPadded 16 second.toNat := by
    simpa [String.ext_iff] using texts
  apply UInt64.toNat_inj.1
  exact Text.hexPadded_inj first.toNat_lt second.toNat_lt digits

/-- Keys by call site begin with a letter that is no digit. -/
theorem fingerprint_ne_ofLocation (request : Request) (location : UInt64) :
    request.fingerprint ≠ ofLocation location := by
  intro same
  have texts : Text.hexBytes (Sha1.digest request.encoding) = "loc:" ++ Text.hexPadded 16 location.toNat :=
    congrArg CacheKey.text same
  -- What hexadecimal digits are read back from has no letter beyond `f`.
  have read := Text.bytesOfHex_hexBytes (Sha1.digest request.encoding)
  rw [texts] at read
  simp [Text.bytesOfHex, Text.bytesOfHexDigits, Text.hexValue] at read

end CacheKey

namespace Request

/-- The call site that the request is keyed by, if it is. -/
def site? (request : Request) : KeyPolicy → Option UInt64
  | .content => none
  | .location => request.location

theorem key_of_site {request : Request} {policy : KeyPolicy} {location : UInt64}
    (keyed : request.site? policy = some location) : request.key policy = .ofLocation location := by
  cases policy with
  | content => cases keyed
  | location =>
    change request.location = some location at keyed
    simp [key, keyed]

theorem key_of_no_site {request : Request} {policy : KeyPolicy} (keyed : request.site? policy = none) :
    request.key policy = request.fingerprint := by
  cases policy with
  | content => rfl
  | location =>
    change request.location = none at keyed
    simp [key, keyed]

section Distinct

variable {first second : Request} (fit : first.Addressable) (also : second.Addressable)
  (distinct : Sha1.digest first.encoding = Sha1.digest second.encoding → first.encoding = second.encoding)

include fit also distinct

theorem fingerprint_eq_iff : first.fingerprint = second.fingerprint ↔ first.content = second.content := by
  constructor
  · intro same
    have digests : Sha1.digest first.encoding = Sha1.digest second.encoding :=
      Text.hexBytes_injective (congrArg CacheKey.text same)
    exact encoding_inj fit also (distinct digests)
  · intro same
    unfold fingerprint
    rw [encoding_congr same]

/-- Requests that share a key share the call site that they are keyed by, or else the content. -/
theorem key_eq_iff_site (policy : KeyPolicy) : first.key policy = second.key policy ↔
    (∃ site, first.site? policy = some site ∧ second.site? policy = some site) ∨
      (first.site? policy = none ∧ second.site? policy = none ∧ first.content = second.content) := by
  cases left : first.site? policy with
  | none =>
    rw [key_of_no_site left]
    cases right : second.site? policy with
    | none => simp [key_of_no_site right, fingerprint_eq_iff fit also distinct]
    | some site => simp [key_of_site right, CacheKey.fingerprint_ne_ofLocation]
  | some site =>
    rw [key_of_site left]
    cases right : second.site? policy with
    | none => simp [key_of_no_site right, (CacheKey.fingerprint_ne_ofLocation second site).symm]
    | some other =>
      rw [key_of_site right]
      constructor
      · intro same
        exact .inl ⟨site, rfl, by rw [CacheKey.ofLocation_injective same]⟩
      · rintro (⟨shared, here, there⟩ | ⟨none, -⟩)
        · rw [Option.some.inj here, Option.some.inj there]
        · cases none

end Distinct

/-- As far as the digest tells the bytes of two requests apart, they have the same key just when both are
keyed by the same call site, or neither is keyed by a call site and both ask for the same. The bytes
themselves are the same only for requests that ask for the same; keys by call site are the same only for
the same site, and never those of a content. -/
theorem key_eq_iff (policy : KeyPolicy) (first second : Request) (fit : first.Addressable) (also : second.Addressable)
    (distinct : Sha1.digest first.encoding = Sha1.digest second.encoding → first.encoding = second.encoding) :
    (first.key policy = second.key policy ↔
      (policy = .location ∧ ∃ site, first.location = some site ∧ second.location = some site) ∨
      ((policy = .content ∨ first.location = none) ∧ (policy = .content ∨ second.location = none) ∧
        first.source = second.source ∧ first.entry = second.entry ∧
        first.options.level = second.options.level ∧ first.options.vectorize = second.options.vectorize ∧
        first.options.extras = second.options.extras)) ∧
    (first.encoding = second.encoding ↔
      first.source = second.source ∧ first.entry = second.entry ∧
        first.options.level = second.options.level ∧ first.options.vectorize = second.options.vectorize ∧
        first.options.extras = second.options.extras) ∧
    (∀ site other, CacheKey.ofLocation site = CacheKey.ofLocation other → site = other) ∧
    ∀ request site, fingerprint request ≠ CacheKey.ofLocation site := by
  refine ⟨?_, ?_, fun _ _ => CacheKey.ofLocation_injective, CacheKey.fingerprint_ne_ofLocation⟩
  · rw [key_eq_iff_site fit also distinct, ← content_eq_iff]
    cases policy <;> simp [site?]
  · rw [← content_eq_iff]
    exact ⟨encoding_inj fit also, encoding_congr⟩

/-- Two requests whose texts run together to the same. -/
theorem key_eq_iff_shifted :
    let first : Request := ⟨"a", "bc", {}, some 7⟩
    let second : Request := ⟨"ab", "c", {}, none⟩
    first.Addressable ∧ second.Addressable ∧ Sha1.digest first.encoding ≠ Sha1.digest second.encoding ∧
      first.key .content ≠ second.key .content := by
  intro first second
  have fit : first.Addressable := ⟨by decide, by decide, by decide, by decide⟩
  have also : second.Addressable := ⟨by decide, by decide, by decide, by decide⟩
  have apart : Sha1.digest first.encoding ≠ Sha1.digest second.encoding := by decide +kernel
  refine ⟨fit, also, apart, fun same => ?_⟩
  have shared := (key_eq_iff .content first second fit also fun collides => absurd collides apart).1.1 same
  simp [first, second] at shared

end Request

end DeferredJit

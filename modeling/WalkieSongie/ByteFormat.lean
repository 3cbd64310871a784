import Mathlib.Algebra.Order.Ring.Nat
import Mathlib.Data.List.Infix
import Mathlib.Data.UInt
import WalkieSongie.TaskProgram
set_option autoImplicit false

/-!
Byte formats: fixed fields at cursors, little-endian numbers, and what it means that a decoder
accepts just what is written.
-/

namespace ByteFormat
open WalkieSongie.TaskProgram

/-- The bytes of a text all of whose letters are single bytes. -/
def ascii (text : String) : List UInt8 := text.toList.map fun letter => UInt8.ofNat letter.toNat

/-- The low bytes of a number, least significant first. -/
def leBytes : Nat → Nat → List UInt8
  | 0, _ => []
  | width+1, n => UInt8.ofNat (n % 256) :: leBytes width (n/256)

def leNat : List UInt8 → Nat
  | [] => 0
  | byte :: bytes => byte.toNat+256*leNat bytes

@[simp] theorem length_leBytes (width n : Nat) : (leBytes width n).length = width := by
  induction width generalizing n with
  | zero => rfl
  | succ width ih => simp only [leBytes,List.length_cons,ih]

theorem leNat_lt (bytes : List UInt8) : leNat bytes < 256^bytes.length := by
  induction bytes with
  | nil => simp [leNat]
  | cons byte bytes ih =>
    have hbyte : byte.toNat < 256 := byte.toNat_lt
    simp only [leNat,List.length_cons,pow_succ]
    omega

theorem leNat_leBytes {width n : Nat} (h : n < 256^width) : leNat (leBytes width n) = n := by
  induction width generalizing n with
  | zero => simp only [pow_zero] at h; simp only [leBytes,leNat]; omega
  | succ width ih =>
    have hrest : n/256 < 256^width := by
      rw [pow_succ] at h
      omega
    have hlow : (UInt8.ofNat (n % 256)).toNat = n % 256 :=
      UInt8.toNat_ofNat_of_lt' (Nat.mod_lt n (by decide))
    simp only [leBytes,leNat,ih hrest,hlow]
    omega

theorem leBytes_leNat (bytes : List UInt8) : leBytes bytes.length (leNat bytes) = bytes := by
  induction bytes with
  | nil => rfl
  | cons byte bytes ih =>
    have hbyte : byte.toNat < 256 := byte.toNat_lt
    have hlow : (byte.toNat+256*leNat bytes) % 256 = byte.toNat := by omega
    have hhigh : (byte.toNat+256*leNat bytes)/256 = leNat bytes := by omega
    simp only [List.length_cons,leNat,leBytes,hlow,hhigh,ih,UInt8.ofNat_toNat]

structure FixedBytes (width : Nat) where
  bytes : List UInt8
  length_eq : bytes.length = width
  deriving DecidableEq

attribute [simp] FixedBytes.length_eq

theorem FixedBytes.ext {width : Nat} {first second : FixedBytes width}
    (h : first.bytes = second.bytes) : first = second := by
  cases first
  cases second
  subst h
  rfl

def FixedBytes.ofNat (width n : Nat) : FixedBytes width := ⟨leBytes width n,length_leBytes width n⟩

def FixedBytes.toNat {width : Nat} (field : FixedBytes width) : Nat := leNat field.bytes

theorem FixedBytes.toNat_lt {width : Nat} (field : FixedBytes width) : field.toNat < 256^width := by
  have h := leNat_lt field.bytes
  rwa [field.length_eq] at h

theorem FixedBytes.toNat_ofNat {width n : Nat} (h : n < 256^width) :
    (FixedBytes.ofNat width n).toNat = n := leNat_leBytes h

theorem FixedBytes.ofNat_toNat {width : Nat} (field : FixedBytes width) :
    FixedBytes.ofNat width field.toNat = field := by
  refine FixedBytes.ext ?_
  have h := leBytes_leNat field.bytes
  rwa [field.length_eq] at h

/-- A field holds a number just when it is the number's own bytes. -/
theorem FixedBytes.toNat_eq_iff {width n : Nat} (h : n < 256^width) (field : FixedBytes width) :
    field.toNat = n ↔ field.bytes = leBytes width n := by
  constructor
  · intro hfield
    rw [← hfield]
    exact (congrArg FixedBytes.bytes (FixedBytes.ofNat_toNat field)).symm
  · intro hfield
    rw [FixedBytes.toNat,hfield,leNat_leBytes h]

theorem leBytes_toUInt64 (field : FixedBytes 8) :
    leBytes 8 (UInt64.ofNat field.toNat).toNat = field.bytes := by
  rw [UInt64.toNat_ofNat_of_lt' field.toNat_lt]
  exact congrArg FixedBytes.bytes field.ofNat_toNat

theorem toNat_ofUInt64 (word : UInt64) :
    UInt64.ofNat (FixedBytes.ofNat 8 word.toNat).toNat = word := by
  rw [FixedBytes.toNat_ofNat word.toNat_lt,UInt64.ofNat_toNat]

section Reading

/-- How a decoder ends without a value: it gives an error, or it indexes out of bounds. -/
inductive Stop (ε : Type) where
  | panic
  | refused (error : ε)
  deriving DecidableEq

abbrev Reading (ε α : Type) := Except (Stop ε) α

variable {ε α : Type} {width : Nat} {bytes before after : List UInt8}

/-- The bytes from one position to another, which have to lie within the string. -/
def slice (start stop : Nat) (bytes : List UInt8) : Reading ε (List UInt8) :=
  if start ≤ stop ∧ stop ≤ bytes.length then .ok ((bytes.drop start).take (stop-start))
  else .error .panic

def byteAt (position : Nat) (bytes : List UInt8) : Reading ε UInt8 :=
  match bytes[position]? with
  | some byte => .ok byte
  | none => .error .panic

def toArray (width : Nat) (error : ε) (bytes : List UInt8) : Reading ε (FixedBytes width) :=
  if h : bytes.length = width then .ok ⟨bytes,h⟩ else .error (.refused error)

/-- The early exit of a checked decoder. -/
def refuse (bad : Prop) [Decidable bad] (error : ε) : Reading ε Unit :=
  if bad then .error (.refused error) else .ok ()

theorem refuse_eq_ok {bad : Prop} [Decidable bad] {error : ε} {result : Unit} :
    refuse bad error = .ok result ↔ ¬ bad := by
  by_cases h : bad <;> simp [refuse,h]

/-- A value another decoder may fail to give. -/
def orRefuse (error : ε) : Option α → Reading ε α
  | some value => .ok value
  | none => .error (.refused error)

theorem orRefuse_eq_ok {error : ε} {found : Option α} {value : α} :
    orRefuse error found = .ok value ↔ found = some value := by
  cases found <;> simp [orRefuse]

theorem slice_field {start stop : Nat} {field : List UInt8}
    (hbytes : bytes = before ++ (field ++ after)) (hstart : before.length = start)
    (hstop : start+field.length = stop) : slice (ε := ε) start stop bytes = .ok field := by
  subst hbytes hstart hstop
  have hbound : before.length+field.length ≤ (before ++ (field ++ after)).length := by
    simp only [List.length_append]
    omega
  rw [slice,if_pos ⟨Nat.le_add_right _ _,hbound⟩,List.drop_left,Nat.add_sub_cancel_left,
    List.take_left]

theorem slice_eq_ok {start stop : Nat} {field : List UInt8}
    (h : slice (ε := ε) start stop bytes = .ok field) :
    bytes.drop start = field ++ bytes.drop stop ∧ field.length = stop-start := by
  unfold slice at h
  split at h
  next hbound =>
    cases h
    have hstop : stop = start+(stop-start) := by omega
    refine ⟨?_,by rw [List.length_take,List.length_drop]; omega⟩
    rw [hstop,← List.drop_drop,Nat.add_sub_cancel_left,List.take_append_drop]
  next => cases h

theorem slice_next {start stop : Nat} {field rest : List UInt8}
    (h : bytes.drop start = field ++ rest) (hstart : start ≤ bytes.length)
    (hstop : start+field.length = stop) :
    slice (ε := ε) start stop bytes = .ok field ∧ bytes.drop stop = rest := by
  subst hstop
  have hlength := congrArg List.length h
  simp only [List.length_drop,List.length_append] at hlength
  rw [slice,if_pos ⟨by omega,by omega⟩,Nat.add_sub_cancel_left,← List.drop_drop,h,List.take_left,
    List.drop_left]
  exact ⟨rfl,rfl⟩

theorem toArray_eq_ok {error : ε} {field : FixedBytes width} :
    toArray width error bytes = .ok field ↔ bytes = field.bytes := by
  constructor
  · intro h
    unfold toArray at h
    split at h
    next => cases h; rfl
    next => cases h
  · rintro rfl
    rw [toArray,dif_pos field.length_eq]

theorem byteAt_field {position : Nat} {byte : UInt8} (hbytes : bytes = before ++ (byte :: after))
    (hposition : before.length = position) : byteAt (ε := ε) position bytes = .ok byte := by
  subst hbytes hposition
  simp [byteAt]

@[simp] theorem toArray_bytes (error : ε) (field : FixedBytes width) :
    toArray width error field.bytes = .ok field := toArray_eq_ok.mpr rfl

def InBounds (reading : Reading ε α) : Prop := reading ≠ .error .panic

theorem inBounds_pure (value : α) : InBounds (pure value : Reading ε α) := nofun

theorem inBounds_throw (error : ε) : InBounds (throw (.refused error) : Reading ε α) := nofun

theorem inBounds_refuse {bad : Prop} [Decidable bad] (error : ε) :
    InBounds (refuse bad error) := by
  unfold refuse
  split
  · exact inBounds_throw error
  · exact inBounds_pure ()

theorem inBounds_toArray (error : ε) (field : List UInt8) :
    InBounds (toArray width error field) := by
  unfold toArray
  split
  · exact nofun
  · exact nofun

theorem inBounds_orRefuse (error : ε) (found : Option α) : InBounds (orRefuse error found) := by
  cases found with
  | none => exact nofun
  | some value => exact nofun

theorem inBounds_slice {start stop : Nat} (hstart : start ≤ stop) (hstop : stop ≤ bytes.length) :
    InBounds (slice (ε := ε) start stop bytes) := by
  rw [slice,if_pos ⟨hstart,hstop⟩]
  exact nofun

theorem InBounds.bind {β : Type} {reading : Reading ε β} {next : β → Reading ε α}
    (h : InBounds reading) (hnext : ∀ value, InBounds (next value)) :
    InBounds (reading >>= next) := by
  cases reading with
  | error stop => cases stop with
    | panic => exact absurd rfl h
    | refused error => exact nofun
  | ok value => exact hnext value

theorem inBounds_guarded {bad : Prop} [Decidable bad] {error : ε} {next : Reading ε α}
    (h : ¬ bad → InBounds next) :
    InBounds (refuse bad error >>= fun _ => next) := by
  by_cases hbad : bad
  · simp [InBounds,refuse,hbad,Bind.bind,Except.bind]
  · simpa [refuse,hbad,Bind.bind,Except.bind] using h hbad

theorem exists_field (h : width ≤ bytes.length) :
    ∃ (field : FixedBytes width) (rest : List UInt8), bytes = field.bytes ++ rest :=
  ⟨⟨bytes.take width,by rw [List.length_take,Nat.min_eq_left h]⟩,bytes.drop width,
    (List.take_append_drop width bytes).symm⟩

end Reading

section Canonical

variable {α : Type}

/-- The decoder accepts just the strings that write some value, and gives that value. -/
def Canonical (writes : α → List UInt8 → Prop) (decode : List UInt8 → Option α) : Prop :=
  ∀ bytes value, decode bytes = some value ↔ writes value bytes

theorem eq_of_accepts {ι : Type} (domain : ι → List UInt8) (accepts : ι → List UInt8 → Prop)
    (hdomain : ∀ format bytes, accepts format bytes → domain format <+: bytes)
    (hfree : ∀ format format', domain format <+: domain format' → format = format')
    {format format' : ι} {bytes : List UInt8} (h : accepts format bytes)
    (h' : accepts format' bytes) : format = format' := by
  cases List.prefix_or_prefix_of_prefix (hdomain format bytes h) (hdomain format' bytes h') with
  | inl hprefixed => exact hfree format format' hprefixed
  | inr hprefixed => exact (hfree format' format hprefixed).symm

end Canonical

section Sealed

variable {ε α : Type}

/-- A serialized value behind a domain, up to a size: what the parts are and how each fails. -/
structure SealedFormat (ε α : Type) where
  domain : List UInt8
  limit : Nat
  toVec : α → Option (List UInt8)
  fromSlice : List UInt8 → Option α
  /-- What is refused of a value that could be read. -/
  unsupported : α → Option ε
  tooLarge : Nat → ε
  wrongDomain : ε
  malformed : ε
  nonCanonical : ε

def stripPrefix (domain bytes : List UInt8) : Option (List UInt8) :=
  if domain <+: bytes then some (bytes.drop domain.length) else none

theorem stripPrefix_append (domain behind : List UInt8) :
    stripPrefix domain (domain ++ behind) = some behind := by
  simp [stripPrefix]

def orThrow (error : ε) : Option α → Except ε α
  | some value => .ok value
  | none => .error error

theorem orThrow_eq_ok {error : ε} {found : Option α} {value : α} :
    orThrow error found = .ok value ↔ found = some value := by
  cases found <;> simp [orThrow]

namespace SealedFormat

def encode (format : SealedFormat ε α) (value : α) : Except ε (List UInt8) := do
  let json ← orThrow format.malformed (format.toVec value)
  let bytes := format.domain ++ json
  refuseIf (format.limit < bytes.length) (format.tooLarge bytes.length)
  return bytes

def decode (format : SealedFormat ε α) (bytes : List UInt8) : Except ε α := do
  refuseIf (format.limit < bytes.length) (format.tooLarge bytes.length)
  let json ← orThrow format.wrongDomain (stripPrefix format.domain bytes)
  let value ← orThrow format.malformed (format.fromSlice json)
  raise (format.unsupported value)
  let encoded ← format.encode value
  refuseIf (encoded ≠ bytes) format.nonCanonical
  return value

/-- Reading a serialized value gives the value back. -/
def Inverts (format : SealedFormat ε α) : Prop :=
  ∀ value json, format.toVec value = some json → format.fromSlice json = some value

variable {format : SealedFormat ε α} {bytes : List UInt8} {value : α}

theorem encode_eq_ok : format.encode value = .ok bytes ↔
    (∃ json, format.toVec value = some json ∧ format.domain ++ json = bytes) ∧
      bytes.length ≤ format.limit := by
  simp only [encode,bind_eq_ok,orThrow_eq_ok,refuseIf_eq_ok,not_lt,pure,Except.pure,Except.ok.injEq]
  constructor
  · rintro ⟨json,hjson,_,hlimit,rfl⟩
    exact ⟨⟨json,hjson,rfl⟩,hlimit⟩
  · rintro ⟨⟨json,hjson,rfl⟩,hlimit⟩
    exact ⟨json,hjson,(),hlimit,rfl⟩

theorem encode_of_decode (h : format.decode bytes = .ok value) :
    format.encode value = .ok bytes ∧ format.unsupported value = none := by
  simp only [decode,bind_eq_ok,orThrow_eq_ok,refuseIf_eq_ok,raise_eq_ok,not_not,pure,Except.pure,
    Except.ok.injEq] at h
  obtain ⟨_,_,json,_,value',_,_,hsupported,encoded,hencoded,_,rfl,rfl⟩ := h
  exact ⟨hencoded,hsupported⟩

theorem decode_of_encode (hinverts : format.Inverts) (h : format.encode value = .ok bytes)
    (hsupported : format.unsupported value = none) : format.decode bytes = .ok value := by
  obtain ⟨⟨json,hjson,rfl⟩,hlimit⟩ := encode_eq_ok.mp h
  simp only [decode,bind_eq_ok,orThrow_eq_ok,refuseIf_eq_ok,raise_eq_ok,not_not,pure,Except.pure,
    Except.ok.injEq,not_lt]
  exact ⟨(),hlimit,json,stripPrefix_append _ _,value,hinverts _ _ hjson,(),hsupported,
    _,h,(),rfl,rfl⟩

theorem decode_eq_ok (hinverts : format.Inverts) : format.decode bytes = .ok value ↔
    format.encode value = .ok bytes ∧ format.unsupported value = none :=
  ⟨encode_of_decode,fun h => decode_of_encode hinverts h.1 h.2⟩

theorem eq_of_decode {bytes' : List UInt8} (h : format.decode bytes = .ok value)
    (h' : format.decode bytes' = .ok value) : bytes = bytes' := by
  have hencoded := (encode_of_decode h).1.symm.trans (encode_of_decode h').1
  exact Except.ok.inj hencoded

theorem domain_of_decode (h : format.decode bytes = .ok value) : format.domain <+: bytes := by
  obtain ⟨⟨json,_,rfl⟩,_⟩ := encode_eq_ok.mp (encode_of_decode h).1
  exact List.prefix_append _ _

end SealedFormat

end Sealed

end ByteFormat

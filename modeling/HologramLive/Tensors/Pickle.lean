import HologramLive.Inference.Completion
import HologramLive.Lib.Runs
namespace HologramLive.Pickle
open Runs List

-- A JavaScript number. The zeros are one: nothing here tells them apart.
inductive Number where
  | nan
  | infinity (negative : Bool)
  | finite (value : Rat)
deriving DecidableEq, Repr

def Number.ofNat (n : Nat) : Number := .finite (n : Rat)

def doubleOf (bits : Nat) : Number :=
  let negative := decide (2^63 ≤ bits)
  let exponent : Nat := bits/2^52%2^11
  let fraction : Nat := bits%2^52
  let signed (value : Rat) := if negative then -value else value
  if exponent = 2047 then if fraction = 0 then .infinity negative else .nan
  else if exponent = 0 then .finite (signed ((fraction : Rat)/(2 : Rat)^1074))
  else .finite (signed (((2^52+fraction : Nat) : Rat)*(2 : Rat)^exponent/(2 : Rat)^1075))

abbrev Ref := Nat

-- Objects are compared by identity, so a value names its object by its place.
inductive Value where
  | undefined
  | null
  | mark
  | bool (b : Bool)
  | number (n : Number)
  | bigint (n : Int)
  | string (text : Str)
  | function (name : Str)
  | storageType (name : Str)
  | object (ref : Ref)
deriving DecidableEq, Repr

abbrev Rows := List (Value × Value)

inductive Object where
  | array (items : List Value)
  | map (rows : Rows)
  | ordered (rows : Rows)
  | buffer (bytes : Bytes)
  | storage (key : Str) (type : Str) (numel : Number)
  | tensor (storage : Ref) (offset : Number) (size stride : List Number)
deriving DecidableEq, Repr

abbrev Heap := List Object

inductive Thrown where
  | truncated
  | outOfRange
  | typeError
  | noMark
  | refusedGlobal (name : Str)
  | notDict
  | notStorage
  | notCallable
  | refusedNewobj
  | refusedBuild
  | refusedPersistent
  | refusedOpcode (op place : Nat)
deriving DecidableEq, Repr

-- The conversions of values that are no string or number already to a string and
-- to a number, which may throw. Nothing below depends on what they answer.
structure Conversions where
  toText : Heap → Value → Option Str
  toNumber : Heap → Value → Option Number

-- `Map.set` and `Map.get`.
section Maps
variable {κ β : Type} [DecidableEq κ]

def mapSet (key : κ) (value : β) : List (κ × β) → List (κ × β)
  | [] => [(key,value)]
  | row :: rest => if row.1 = key then (key,value) :: rest else row :: mapSet key value rest

variable {rows : List (κ × β)} {value : β}

theorem mapSet_mem (member : row ∈ mapSet key value rows) : row = (key,value) ∨ row ∈ rows := by
  induction rows with
  | nil => exact .inl (mem_singleton.mp member)
  | cons first rest ih =>
    unfold mapSet at member
    split at member
    · exact (mem_cons.mp member).imp id (mem_cons_of_mem _)
    · rcases mem_cons.mp member with rfl | later
      · exact .inr mem_cons_self
      · exact (ih later).imp id (mem_cons_of_mem _)

theorem mapSet_keys (rows : List (κ × β)) :
    name ∈ (mapSet key value rows).map (·.1) ↔ name = key ∨ name ∈ rows.map (·.1) := by
  induction rows with
  | nil => simp [mapSet]
  | cons first rest ih =>
    unfold mapSet
    split
    · rename_i same
      simp [same]
    · simp only [map_cons,mem_cons,ih]
      exact or_left_comm

theorem mapSet_nodup (distinct : (rows.map (·.1)).Nodup) : ((mapSet key value rows).map (·.1)).Nodup := by
  induction rows with
  | nil => exact nodup_singleton key
  | cons first rest ih =>
    obtain ⟨apart,later⟩ := nodup_cons.mp distinct
    unfold mapSet
    split
    · rename_i same
      exact nodup_cons.mpr ⟨same ▸ apart,later⟩
    · rename_i other
      refine nodup_cons.mpr ⟨fun inside => ?_,ih later⟩
      exact ((mapSet_keys rest).mp inside).elim other apart

end Maps

structure State where
  -- Nothing is NaN: a length read past the end was added to it.
  pos : Option Nat
  stack : List Value
  memo : List (Option Nat × Value)
  used : List Str
  heap : Heap
  applied : List Str

def State.start (pos : Nat) : State := ⟨some pos,[],[],[],[],[]⟩

abbrev M := StateT State (Except Thrown)

def fail {α : Type} (thrown : Thrown) : M α := fun _ => .error thrown

section Reading
variable (buf : Bytes)

def u8 : M (Option UInt8) := fun s => match s.pos with
  | none => .ok (none,s)
  | some i => .ok (buf[i]?,{s with pos := some (i+1)})

def fixed (count : Nat) : M Bytes := fun s => match s.pos with
  | none => .error .outOfRange
  | some i => if i+count ≤ buf.length then .ok ((buf.drop i).take count,{s with pos := some (i+count)}) else .error .outOfRange

def littleEndian : Bytes → Nat
  | [] => 0
  | b :: rest => b.toNat+256*littleEndian rest

def u16 : M Nat := return littleEndian (← fixed buf 2)
def u32 : M Nat := return littleEndian (← fixed buf 4)
def signed (bits n : Nat) : Int := if 2^(bits-1) ≤ n then (n : Int)-2^bits else n
def i32 : M Int := return signed 32 (← u32 buf)

def bytes (n : Option Nat) : M Bytes := fun s => match n,s.pos with
  | some n,some i => if buf.length < i+n then .error .truncated else .ok ((buf.drop i).take n,{s with pos := some (i+n)})
  | _,_ => .ok ([],{s with pos := none})

def latin1 (taken : Bytes) : Str := taken.map fun b => Char.ofNat b.toNat

def line : M Str := fun s => match s.pos with
  | none => .error .truncated
  | some i =>
    let rest := buf.drop i
    if (10 : UInt8) ∈ rest then
      let taken := rest.takeWhile (· ≠ 10)
      .ok (latin1 taken,{s with pos := some (i+taken.length+1)})
    else .error .truncated

end Reading

def push (v : Value) : M Unit := fun s => .ok ((),{s with stack := v :: s.stack})
def pop : M Value := fun s => .ok (s.stack.head?.getD .undefined,{s with stack := s.stack.tail})
def top : M Value := fun s => .ok (s.stack.head?.getD .undefined,s)

def popMark : M (List Value) := fun s =>
  if .mark ∈ s.stack then
    .ok ((s.stack.takeWhile (· ≠ .mark)).reverse,{s with stack := (s.stack.dropWhile (· ≠ .mark)).tail})
  else .error .noMark

def alloc (o : Object) : M Value := fun s => .ok (.object s.heap.length,{s with heap := s.heap ++ [o]})
def object (v : Value) : M (Option Object) := fun s => match v with
  | .object ref => .ok (s.heap[ref]?,s)
  | _ => .ok (none,s)
def store (v : Value) (o : Object) : M Unit := fun s => match v with
  | .object ref => .ok ((),{s with heap := s.heap.set ref o})
  | _ => .ok ((),s)
def memoize (key : Option Nat) (v : Value) : M Unit := fun s => .ok ((),{s with memo := mapSet key v s.memo})
def memoGet (key : Option Nat) : M Value := fun s => .ok ((s.memo.lookup key).getD .undefined,s)
def memoSize : M Nat := fun s => .ok (s.memo.length,s)

section Machine
variable (conversions : Conversions)

def template (v : Value) : M Str := fun s => match v with
  | .string text => .ok (text,s)
  | .mark => .error .typeError
  | v => match conversions.toText s.heap v with
    | some text => .ok (text,s)
    | none => .error .typeError
def stringOf (v : Value) : M Str := match v with
  | .mark => return "Symbol(mark)".toList
  | v => template conversions v
def toNumber (v : Value) : M Number := fun s => match v with
  | .number n => .ok (n,s)
  | .mark => .error .typeError
  | v => match conversions.toNumber s.heap v with
    | some n => .ok (n,s)
    | none => .error .typeError

def numbers : List Value → M (List Number)
  | [] => return []
  | v :: rest => return (← toNumber conversions v) :: (← numbers rest)

def mapNumber (v : Value) : M (List Number) := do
  match ← object v with
  | some (.array items) => numbers conversions items
  | some (.buffer taken) => return taken.map fun b => .ofNat b.toNat
  | _ => fail .typeError

def storages : List (Str × Str × Nat) :=
  [("FloatStorage".toList,"F32".toList,4),("HalfStorage".toList,"F16".toList,2),("BFloat16Storage".toList,"BF16".toList,2),
    ("DoubleStorage".toList,"F64".toList,8),("LongStorage".toList,"I64".toList,8),("IntStorage".toList,"I32".toList,4),
    ("ShortStorage".toList,"I16".toList,2),("CharStorage".toList,"I8".toList,1),("ByteStorage".toList,"U8".toList,1),
    ("BoolStorage".toList,"BOOL".toList,1)]

def rebuildTensor : Str := "torch._utils._rebuild_tensor_v2".toList
def rebuildParameter : Str := "torch._utils._rebuild_parameter".toList
def orderedDict : Str := "collections.OrderedDict".toList
def torchSize : Str := "torch.Size".toList
def functions : List Str := [rebuildTensor,rebuildParameter,orderedDict,torchSize]

def allow : List (Str × Value) :=
  functions.map (fun name => (name,.function name)) ++
    storages.map fun row => ("torch.".toList ++ row.1,.storageType row.1)

def find (mod name : Value) : M Value := do
  let k := (← template conversions mod) ++ '.' :: (← template conversions name)
  match allow.lookup k with
  | none => fail (.refusedGlobal k)
  | some v => fun s => .ok (v,{s with used := s.used.insert k})

def call (name : Str) (args : List Value) : M Value := do
  fun s => .ok ((),{s with applied := name :: s.applied})
  let arg (i : Nat) : Value := args.getD i .undefined
  if name = rebuildTensor then
    match arg 0,← object (arg 0) with
    | .object ref,some (.storage ..) => do
      let offset ← toNumber conversions (arg 1)
      let size ← mapNumber conversions (arg 2)
      let stride ← mapNumber conversions (arg 3)
      alloc (.tensor ref offset size stride)
    | _,_ => fail .notStorage
  else if name = orderedDict then alloc (.ordered [])
  else return arg 0

def allocRows : Rows → M (List Value)
  | [] => return []
  | (k,v) :: rest => return (← alloc (.array [k,v])) :: (← allocRows rest)

def spread (v : Value) : M (List Value) := do
  match v,← object v with
  | .string text,_ => return text.map fun c => .string [c]
  | _,some (.array items) => return items
  | _,some (.map rows) => allocRows rows
  | _,some (.buffer taken) => return taken.map fun b => .number (.ofNat b.toNat)
  | _,_ => fail .typeError

def append (target : Value) (items : List Value) : M Unit := do
  match ← object target with
  | some (.array held) => store target (.array (held ++ items))
  | _ => fail .typeError

def setitem (d k v : Value) : M Unit := do
  match ← object d with
  | some (.ordered rows) => store d (.ordered (mapSet k v rows))
  | some (.map rows) => store d (.map (mapSet k v rows))
  | _ => fail .notDict

def pairs : List Value → Rows
  | k :: v :: rest => (k,v) :: pairs rest
  | [k] => [(k,.undefined)]
  | [] => []

def setitems (d : Value) : Rows → M Unit
  | [] => return ()
  | (k,v) :: rest => do
    setitem d k v
    setitems d rest

def reduce : M Unit := do
  let args ← pop
  match ← pop with
  | .function name => push (← call conversions name (← spread args))
  | _ => fail .notCallable

def build : M Unit := do
  let _ ← pop
  match ← object (← top) with
  | some (.ordered _) | some (.map _) | some (.tensor ..) => return ()
  | _ => fail .refusedBuild

def persistent (pid : List Value) : Bool :=
  pid[0]? = some (.string "storage".toList) && (pid.length = 5 || (pid.length = 6 && pid[5]? = some .null))

def binpersid : M Unit := do
  match ← object (← pop) with
  | some (.array pid) => match persistent pid,pid.getD 1 .undefined with
    | true,.storageType type => do
      let key ← stringOf conversions (pid.getD 2 .undefined)
      let numel ← toNumber conversions (pid.getD 4 .undefined)
      push (← alloc (.storage key type numel))
    | _,_ => fail .refusedPersistent
  | _ => fail .refusedPersistent

def long (taken : Bytes) : Int := if taken = [] then 0 else signed (8*taken.length) (littleEndian taken)

def byteNat (b : Option UInt8) : Option Nat := b.map UInt8.toNat
def ofByte (b : Option UInt8) : Value := b.elim .undefined fun b => .number (.ofNat b.toNat)
def utf8 (taken : Bytes) : Value := .string (Inference.fromUtf8Lossy taken)

variable (buf : Bytes)

def opcodes : List (Nat × M Unit) :=
  [(0x80,do let _ ← u8 buf),
    (0x95,fun s => .ok ((),{s with pos := s.pos.map (· + 8)})),
    (0x28,push .mark),
    (0x4e,push .null),
    (0x88,push (.bool true)),
    (0x89,push (.bool false)),
    (0x4a,do push (.number (.finite (← i32 buf)))),
    (0x4b,do push (ofByte (← u8 buf))),
    (0x4d,do push (.number (.ofNat (← u16 buf)))),
    (0x8a,do push (.bigint (long (← bytes buf (byteNat (← u8 buf)))))),
    (0x47,do push (.number (doubleOf (littleEndian (← fixed buf 8).reverse)))),
    (0x58,do push (utf8 (← bytes buf (some (← u32 buf))))),
    (0x8c,do push (utf8 (← bytes buf (byteNat (← u8 buf))))),
    (0x54,do push (.string (latin1 (← bytes buf (some (← u32 buf)))))),
    (0x55,do push (.string (latin1 (← bytes buf (byteNat (← u8 buf)))))),
    (0x42,do push (← alloc (.buffer (← bytes buf (some (← u32 buf)))))),
    (0x43,do push (← alloc (.buffer (← bytes buf (byteNat (← u8 buf)))))),
    (0x7d,do push (← alloc (.map []))),
    (0x5d,do push (← alloc (.array []))),
    (0x29,do push (← alloc (.array []))),
    (0x74,do push (← alloc (.array (← popMark)))),
    (0x85,do push (← alloc (.array [← pop]))),
    (0x86,do
      let b ← pop
      let a ← pop
      push (← alloc (.array [a,b]))),
    (0x87,do
      let c ← pop
      let b ← pop
      let a ← pop
      push (← alloc (.array [a,b,c]))),
    (0x6c,do push (← alloc (.array (← popMark)))),
    (0x61,do
      let v ← pop
      append (← top) [v]),
    (0x65,do
      let items ← popMark
      append (← top) items),
    (0x64,do
      let items ← popMark
      push (← alloc (.map ((pairs items).foldl (fun rows row => mapSet row.1 row.2 rows) [])))),
    (0x73,do
      let v ← pop
      let k ← pop
      setitem (← top) k v),
    (0x75,do
      let items ← popMark
      setitems (← top) (pairs items)),
    (0x71,do memoize (byteNat (← u8 buf)) (← top)),
    (0x72,do memoize (some (← u32 buf)) (← top)),
    (0x94,do memoize (some (← memoSize)) (← top)),
    (0x68,do push (← memoGet (byteNat (← u8 buf)))),
    (0x6a,do push (← memoGet (some (← u32 buf)))),
    (0x63,do
      let mod ← line buf
      let name ← line buf
      push (← find conversions (.string mod) (.string name))),
    (0x93,do
      let name ← pop
      let mod ← pop
      push (← find conversions mod name)),
    (0x52,reduce conversions),
    (0x81,fail .refusedNewobj),
    (0x62,build),
    (0x51,binpersid conversions)]

def step : M (Option Value) := do
  match ← u8 buf with
  | none => fun s => .error (if s.pos.isSome then .truncated else .typeError)
  | some op =>
    if op = 0x2e then return some (← pop)
    else match (opcodes conversions buf).lookup op.toNat with
      | some act => do
        act
        return none
      | none => fun s => .error (.refusedOpcode op.toNat (s.pos.getD 0-1))

def run : Nat → State → Option (Except Thrown (Value × State))
  | 0,_ => none
  | fuel+1,s => match step conversions buf s with
    | .error thrown => some (.error thrown)
    | .ok (some v,t) => some (.ok (v,t))
    | .ok (none,t) => run fuel t

def unpickle (pos : Nat) : Option (Except Thrown (Value × State)) := run conversions buf (buf.length-pos+2) (.start pos)

end Machine

def Value.Clean (v : Value) : Prop := ∀ name,v = .function name → name ∈ functions

def Object.values : Object → List Value
  | .array items => items
  | .map rows | .ordered rows => rows.map (·.1) ++ rows.map (·.2)
  | .buffer _ | .storage .. | .tensor .. => []

structure State.Clean (s : State) : Prop where
  stack : ∀ v ∈ s.stack,v.Clean
  memo : ∀ row ∈ s.memo,row.2.Clean
  heap : ∀ o ∈ s.heap,∀ v ∈ o.values,v.Clean
  applied : ∀ name ∈ s.applied,name ∈ functions

def Later : Option Nat → Option Nat → Prop
  | _,none => True
  | some i,some j => i ≤ j
  | none,some _ => False

theorem Later.refl (place : Option Nat) : Later place place := by
  cases place with
  | none => exact trivial
  | some i => exact Nat.le_refl i

theorem Later.trans (first : Later a b) (second : Later b c) : Later a c := by
  cases c with
  | none => cases a <;> exact trivial
  | some k =>
    cases b with
    | none => exact second.elim
    | some j =>
      cases a with
      | none => exact first.elim
      | some i => exact Nat.le_trans first second

def Keeps {α : Type} (m : M α) (good : α → Prop) : Prop :=
  ∀ s a t,s.Clean → m s = .ok (a,t) → t.Clean ∧ Later s.pos t.pos ∧ good a

namespace Keeps
variable {α β : Type} {m : M α} {f : α → M β} {good : α → Prop} {after : β → Prop}

theorem bind (first : Keeps m good) (next : ∀ a,good a → Keeps (f a) after) : Keeps (m >>= f) after := by
  intro s b u clean ran
  obtain ⟨⟨a,t⟩,one,two⟩ := Fallible.bind_ok ran
  obtain ⟨cleaned,moved,holds⟩ := first s a t clean one
  obtain ⟨cleaner,further,fine⟩ := next a holds t b u cleaned two
  exact ⟨cleaner,moved.trans further,fine⟩

theorem pure (holds : good a) : Keeps (Pure.pure a) good := by
  intro s b t clean ran
  cases ran
  exact ⟨clean,.refl _,holds⟩

theorem fail : Keeps (Pickle.fail thrown) good := by
  intro s a t clean ran
  cases ran

end Keeps

def Any {α : Type} (_ : α) : Prop := True
def AllClean (values : List Value) : Prop := ∀ v ∈ values,v.Clean

section Kept
variable {buf : Bytes} {conversions : Conversions} {v : Value} {items : List Value}

theorem u8_keeps : Keeps (u8 buf) Any := by
  intro s a t clean ran
  unfold u8 at ran
  split at ran
  · cases ran
    exact ⟨clean,.refl _,trivial⟩
  · rename_i i place
    cases ran
    rw [place]
    exact ⟨{clean with},Nat.le_succ i,trivial⟩

theorem fixed_keeps {count : Nat} : Keeps (fixed buf count) Any := by
  intro s a t clean ran
  unfold fixed at ran
  split at ran
  · cases ran
  · rename_i i place
    split at ran
    · cases ran
      rw [place]
      exact ⟨{clean with},Nat.le_add_right i count,trivial⟩
    · cases ran

theorem bytes_keeps : Keeps (bytes buf n) Any := by
  intro s a t clean ran
  unfold bytes at ran
  split at ran
  · rename_i n i place
    split at ran
    · cases ran
    · cases ran
      rw [place]
      exact ⟨{clean with},Nat.le_add_right i n,trivial⟩
  · cases ran
    refine ⟨{clean with},?_,trivial⟩
    cases s.pos <;> exact trivial

theorem line_keeps : Keeps (line buf) Any := by
  intro s a t clean ran
  unfold line at ran
  split at ran
  · cases ran
  · rename_i i place
    dsimp only at ran
    split at ran
    · cases ran
      rw [place]
      exact ⟨{clean with},by show i ≤ _; omega,trivial⟩
    · cases ran

theorem push_keeps (fine : v.Clean) : Keeps (push v) Any := by
  intro s a t clean ran
  cases ran
  exact ⟨{clean with stack := forall_mem_cons.mpr ⟨fine,clean.stack⟩},.refl _,trivial⟩

theorem head_clean (fine : AllClean values) : (values.head?.getD .undefined).Clean := by
  cases values with
  | nil => exact fun name no => (by cases no)
  | cons v rest => exact fine v mem_cons_self

theorem pop_keeps : Keeps pop Value.Clean := by
  intro s a t clean ran
  cases ran
  exact ⟨{clean with stack := fun v member => clean.stack v (mem_of_mem_tail member)},.refl _,head_clean clean.stack⟩

theorem top_keeps : Keeps top Value.Clean := by
  intro s a t clean ran
  cases ran
  exact ⟨clean,.refl _,head_clean clean.stack⟩

theorem popMark_keeps : Keeps popMark AllClean := by
  intro s a t clean ran
  unfold popMark at ran
  split at ran
  · cases ran
    refine ⟨{clean with stack := fun v member => ?_},.refl _,fun v member => ?_⟩
    · exact clean.stack v ((dropWhile_suffix _).subset (mem_of_mem_tail member))
    · exact clean.stack v (( takeWhile_prefix _).subset (mem_reverse.mp member))
  · cases ran

theorem object_clean (ref : Ref) : (Value.object ref).Clean := fun name no => (by cases no)

theorem alloc_keeps (fine : AllClean o.values) : Keeps (alloc o) Value.Clean := by
  intro s a t clean ran
  cases ran
  refine ⟨{clean with heap := fun other member => ?_},.refl _,object_clean _⟩
  rcases mem_append.mp member with old | new
  · exact clean.heap other old
  · rw [mem_singleton.mp new]
    exact fine

theorem object_keeps : Keeps (object v) fun o => ∀ o' ∈ o,AllClean o'.values := by
  intro s a t clean ran
  unfold object at ran
  split at ran
  · cases ran
    exact ⟨clean,.refl _,fun o found => clean.heap o (mem_of_getElem? found)⟩
  · cases ran
    exact ⟨clean,.refl _,fun o no => (by cases no)⟩

theorem store_keeps (fine : AllClean o.values) : Keeps (store v o) Any := by
  intro s a t clean ran
  unfold store at ran
  split at ran
  · cases ran
    refine ⟨{clean with heap := fun other member => ?_},.refl _,trivial⟩
    rcases mem_or_eq_of_mem_set member with old | rfl
    · exact clean.heap other old
    · exact fine
  · cases ran
    exact ⟨clean,.refl _,trivial⟩

theorem memoize_keeps (fine : v.Clean) : Keeps (memoize key v) Any := by
  intro s a t clean ran
  cases ran
  refine ⟨{clean with memo := fun row member => ?_},.refl _,trivial⟩
  rcases mapSet_mem member with rfl | old
  · exact fine
  · exact clean.memo row old

theorem memoGet_keeps : Keeps (memoGet key) Value.Clean := by
  intro s a t clean ran
  cases ran
  refine ⟨clean,.refl _,?_⟩
  cases found : s.memo.lookup key with
  | none => exact fun name no => (by cases no)
  | some v =>
    obtain ⟨left,right,shape,_⟩ := lookup_eq_some_iff.mp found
    exact clean.memo (key,v) (shape ▸ mem_append_right _ mem_cons_self)

theorem memoSize_keeps : Keeps memoSize Any := by
  intro s a t clean ran
  cases ran
  exact ⟨clean,.refl _,trivial⟩

theorem template_keeps : Keeps (template conversions v) Any := by
  intro s a t clean ran
  unfold template at ran
  split at ran
  · cases ran
    exact ⟨clean,.refl _,trivial⟩
  · cases ran
  · split at ran
    · cases ran
      exact ⟨clean,.refl _,trivial⟩
    · cases ran

theorem stringOf_keeps : Keeps (stringOf conversions v) Any := by
  unfold stringOf
  split
  · exact .pure trivial
  · exact template_keeps

theorem toNumber_keeps : Keeps (toNumber conversions v) Any := by
  intro s a t clean ran
  unfold toNumber at ran
  split at ran
  · cases ran
    exact ⟨clean,.refl _,trivial⟩
  · cases ran
  · split at ran
    · cases ran
      exact ⟨clean,.refl _,trivial⟩
    · cases ran

theorem numbers_keeps : Keeps (numbers conversions items) Any := by
  induction items with
  | nil => exact .pure trivial
  | cons v rest ih => exact .bind toNumber_keeps fun n _ => .bind ih fun ns _ => .pure trivial

theorem mapNumber_keeps : Keeps (mapNumber conversions v) Any := by
  refine .bind object_keeps fun o _ => ?_
  split
  · exact numbers_keeps
  · exact .pure trivial
  · exact .fail

theorem plain_clean (plain : ∀ name,v ≠ .function name) : v.Clean := fun name same => absurd same (plain name)

theorem allow_clean (found : allow.lookup k = some v) : v.Clean := by
  obtain ⟨left,right,shape,_⟩ := lookup_eq_some_iff.mp found
  have member : (k,v) ∈ allow := shape ▸ mem_append_right _ mem_cons_self
  rcases mem_append.mp member with named | typed
  · obtain ⟨name,listed,same⟩ := mem_map.mp named
    cases same
    intro other equal
    cases equal
    exact listed
  · obtain ⟨row,_,same⟩ := mem_map.mp typed
    cases same
    exact plain_clean fun name no => (by cases no)

theorem find_keeps : Keeps (find conversions mod name) Value.Clean := by
  refine .bind template_keeps fun first _ => .bind template_keeps fun second _ => ?_
  dsimp only
  split
  · exact .fail
  · rename_i found
    intro s a t clean ran
    cases ran
    exact ⟨{clean with},.refl _,allow_clean found⟩

theorem getD_clean (fine : AllClean items) (i : Nat) : (items.getD i .undefined).Clean := by
  rw [getD_eq_getElem?_getD]
  cases found : items[i]? with
  | none => exact plain_clean fun name no => (by cases no)
  | some v => exact fine v (mem_of_getElem? found)

theorem call_keeps (known : name ∈ functions) (fine : AllClean items) :
    Keeps (call conversions name items) Value.Clean := by
  have logged : Keeps (fun s : State => .ok ((),{s with applied := name :: s.applied}) : M Unit) Any := by
    intro s a t clean ran
    cases ran
    exact ⟨{clean with applied := forall_mem_cons.mpr ⟨known,clean.applied⟩},.refl _,trivial⟩
  refine .bind logged fun _ _ => ?_
  dsimp only
  split
  · refine .bind object_keeps fun o _ => ?_
    split
    · exact .bind toNumber_keeps fun _ _ => .bind mapNumber_keeps fun _ _ => .bind mapNumber_keeps fun _ _ =>
        alloc_keeps fun v member => (by cases member)
    · exact .fail
  · split
    · exact alloc_keeps fun v member => (by cases member)
    · exact .pure (getD_clean fine 0)

variable {rows : Rows}

theorem allocRows_keeps (fine : ∀ row ∈ rows,row.1.Clean ∧ row.2.Clean) : Keeps (allocRows rows) AllClean := by
  induction rows with
  | nil => exact .pure fun v member => (by cases member)
  | cons row rest ih =>
    obtain ⟨⟨key,value⟩,later⟩ := forall_mem_cons.mp fine
    have both : AllClean [row.1,row.2] := forall_mem_cons.mpr ⟨key,forall_mem_singleton.mpr value⟩
    exact .bind (alloc_keeps both) fun v clean => .bind (ih later) fun vs cleans =>
      .pure (forall_mem_cons.mpr ⟨clean,cleans⟩)

theorem rows_clean : AllClean (rows.map (·.1) ++ rows.map (·.2)) ↔ ∀ row ∈ rows,row.1.Clean ∧ row.2.Clean := by
  constructor
  · exact fun fine row member => ⟨fine _ (mem_append_left _ (mem_map_of_mem member)),
      fine _ (mem_append_right _ (mem_map_of_mem member))⟩
  · intro fine v member
    rcases mem_append.mp member with key | value
    · obtain ⟨row,listed,rfl⟩ := mem_map.mp key
      exact (fine row listed).1
    · obtain ⟨row,listed,rfl⟩ := mem_map.mp value
      exact (fine row listed).2

theorem spread_keeps : Keeps (spread v) AllClean := by
  refine .bind object_keeps fun o clean => ?_
  split
  · refine .pure fun v member => ?_
    obtain ⟨c,_,rfl⟩ := mem_map.mp member
    exact plain_clean fun name no => (by cases no)
  · exact .pure (clean _ rfl)
  · exact allocRows_keeps (rows_clean.mp (clean _ rfl))
  · refine .pure fun v member => ?_
    obtain ⟨b,_,rfl⟩ := mem_map.mp member
    exact plain_clean fun name no => (by cases no)
  · exact .fail

theorem append_keeps (fine : AllClean items) : Keeps (append v items) Any := by
  refine .bind object_keeps fun o clean => ?_
  split
  · refine store_keeps fun v member => ?_
    exact (mem_append.mp member).elim (clean _ rfl v) (fine v)
  · exact .fail

theorem mapSet_clean (fine : ∀ row ∈ rows,row.1.Clean ∧ row.2.Clean) (key : k.Clean)
    (value : v.Clean) : ∀ row ∈ mapSet k v rows,row.1.Clean ∧ row.2.Clean := by
  intro row member
  rcases mapSet_mem member with rfl | old
  · exact ⟨key,value⟩
  · exact fine row old

theorem setitem_keeps (key : k.Clean) (value : v.Clean) : Keeps (setitem d k v) Any := by
  refine .bind object_keeps fun o clean => ?_
  split
  · exact store_keeps (rows_clean.mpr (mapSet_clean (rows_clean.mp (clean _ rfl)) key value))
  · exact store_keeps (rows_clean.mpr (mapSet_clean (rows_clean.mp (clean _ rfl)) key value))
  · exact .fail

theorem pairs_clean (fine : AllClean items) : ∀ row ∈ pairs items,row.1.Clean ∧ row.2.Clean := by
  induction items using pairs.induct with
  | case1 k v rest ih =>
    obtain ⟨key,others⟩ := forall_mem_cons.mp fine
    obtain ⟨value,later⟩ := forall_mem_cons.mp others
    exact forall_mem_cons.mpr ⟨⟨key,value⟩,ih later⟩
  | case2 k =>
    exact forall_mem_singleton.mpr ⟨fine k mem_cons_self,plain_clean fun name no => (by cases no)⟩
  | case3 => exact fun row member => (by cases member)

theorem setitems_keeps (fine : ∀ row ∈ rows,row.1.Clean ∧ row.2.Clean) : Keeps (setitems d rows) Any := by
  induction rows with
  | nil => exact .pure trivial
  | cons row rest ih =>
    obtain ⟨⟨key,value⟩,later⟩ := forall_mem_cons.mp fine
    exact .bind (setitem_keeps key value) fun _ _ => ih later

theorem gathered_clean {rows start : Rows} (begun : ∀ row ∈ start,row.1.Clean ∧ row.2.Clean)
    (fine : ∀ row ∈ rows,row.1.Clean ∧ row.2.Clean) :
    ∀ row ∈ rows.foldl (fun rows row => mapSet row.1 row.2 rows) start,row.1.Clean ∧ row.2.Clean := by
  induction rows generalizing start with
  | nil => exact begun
  | cons row rest ih =>
    obtain ⟨⟨key,value⟩,later⟩ := forall_mem_cons.mp fine
    exact ih (mapSet_clean begun key value) later

theorem reduce_keeps : Keeps (reduce conversions) Any := by
  refine .bind pop_keeps fun args _ => .bind pop_keeps fun fn clean => ?_
  split
  · rename_i name
    exact .bind spread_keeps fun items fine => .bind (call_keeps (clean name rfl) fine) fun v result => push_keeps result
  · exact .fail

theorem build_keeps : Keeps build Any := by
  refine .bind pop_keeps fun _ _ => .bind top_keeps fun v _ => .bind object_keeps fun o _ => ?_
  split
  · exact .pure trivial
  · exact .pure trivial
  · exact .pure trivial
  · exact .fail

theorem binpersid_keeps : Keeps (binpersid conversions) Any := by
  refine .bind pop_keeps fun v _ => .bind object_keeps fun o _ => ?_
  split
  · split
    · exact .bind stringOf_keeps fun _ _ => .bind toNumber_keeps fun _ _ =>
        .bind (alloc_keeps fun v member => (by cases member)) fun v clean => push_keeps clean
    · exact .fail
  · exact .fail

theorem u16_keeps : Keeps (u16 buf) Any := .bind fixed_keeps fun _ _ => .pure trivial
theorem u32_keeps : Keeps (u32 buf) Any := .bind fixed_keeps fun _ _ => .pure trivial
theorem i32_keeps : Keeps (i32 buf) Any := .bind u32_keeps fun _ _ => .pure trivial

theorem ofByte_clean (b : Option UInt8) : (ofByte b).Clean := by
  cases b <;> exact plain_clean fun name no => (by cases no)

theorem opcodes_keep : ∀ entry ∈ opcodes conversions buf,Keeps entry.2 Any := by
  have plain {v : Value} (other : ∀ name,v ≠ .function name) : Keeps (push v) Any := push_keeps (plain_clean other)
  have made {o : Object} (fine : AllClean o.values) : Keeps (do push (← alloc o)) Any :=
    .bind (alloc_keeps fine) fun v clean => push_keeps clean
  have none_ : AllClean [] := fun v member => (by cases member)
  have nothing {name : Str} : ∀ other,Value.string name ≠ .function other := fun other no => (by cases no)
  unfold opcodes
  simp only [forall_mem_cons]
  refine ⟨u8_keeps.bind fun _ _ => .pure trivial,?frame,plain (fun _ no => (by cases no)),plain (fun _ no => (by cases no)),
    plain (fun _ no => (by cases no)),plain (fun _ no => (by cases no)),
    i32_keeps.bind fun _ _ => plain (fun _ no => (by cases no)),
    u8_keeps.bind fun b _ => push_keeps (ofByte_clean b),
    u16_keeps.bind fun _ _ => plain (fun _ no => (by cases no)),
    u8_keeps.bind fun _ _ => bytes_keeps.bind fun _ _ => plain (fun _ no => (by cases no)),
    fixed_keeps.bind fun _ _ => plain (fun _ no => (by cases no)),
    u32_keeps.bind fun _ _ => bytes_keeps.bind fun _ _ => plain (fun _ no => (by cases no)),
    u8_keeps.bind fun _ _ => bytes_keeps.bind fun _ _ => plain (fun _ no => (by cases no)),
    u32_keeps.bind fun _ _ => bytes_keeps.bind fun _ _ => plain (fun _ no => (by cases no)),
    u8_keeps.bind fun _ _ => bytes_keeps.bind fun _ _ => plain (fun _ no => (by cases no)),
    u32_keeps.bind fun _ _ => bytes_keeps.bind fun _ _ => made none_,
    u8_keeps.bind fun _ _ => bytes_keeps.bind fun _ _ => made none_,
    made none_,made none_,made none_,
    popMark_keeps.bind fun _ clean => made clean,
    pop_keeps.bind fun _ a => made (forall_mem_singleton.mpr a),
    pop_keeps.bind fun _ b => pop_keeps.bind fun _ a => made (forall_mem_cons.mpr ⟨a,forall_mem_singleton.mpr b⟩),
    pop_keeps.bind fun _ c => pop_keeps.bind fun _ b => pop_keeps.bind fun _ a =>
      made (forall_mem_cons.mpr ⟨a,forall_mem_cons.mpr ⟨b,forall_mem_singleton.mpr c⟩⟩),
    popMark_keeps.bind fun _ clean => made clean,
    pop_keeps.bind fun _ v => top_keeps.bind fun _ _ => append_keeps (forall_mem_singleton.mpr v),
    popMark_keeps.bind fun _ clean => top_keeps.bind fun _ _ => append_keeps clean,
    popMark_keeps.bind fun _ clean => made (rows_clean.mpr (gathered_clean (fun _ no => (by cases no)) (pairs_clean clean))),
    pop_keeps.bind fun _ v => pop_keeps.bind fun _ k => top_keeps.bind fun _ _ => setitem_keeps k v,
    popMark_keeps.bind fun _ clean => top_keeps.bind fun _ _ => setitems_keeps (pairs_clean clean),
    u8_keeps.bind fun _ _ => top_keeps.bind fun _ v => memoize_keeps v,
    u32_keeps.bind fun _ _ => top_keeps.bind fun _ v => memoize_keeps v,
    memoSize_keeps.bind fun _ _ => top_keeps.bind fun _ v => memoize_keeps v,
    u8_keeps.bind fun _ _ => memoGet_keeps.bind fun _ v => push_keeps v,
    u32_keeps.bind fun _ _ => memoGet_keeps.bind fun _ v => push_keeps v,
    line_keeps.bind fun _ _ => line_keeps.bind fun _ _ => find_keeps.bind fun _ v => push_keeps v,
    pop_keeps.bind fun _ _ => pop_keeps.bind fun _ _ => find_keeps.bind fun _ v => push_keeps v,
    reduce_keeps,.fail,build_keeps,binpersid_keeps,fun _ no => (by cases no)⟩
  intro s a t clean ran
  cases ran
  refine ⟨{clean with},?_,trivial⟩
  cases s.pos with
  | none => exact trivial
  | some i => exact Nat.le_add_right i 8

end Kept

section Runs
variable {conversions : Conversions} {buf : Bytes} {s t : State} {v : Value} {pos : Nat}

def Continues (conversions : Conversions) (buf : Bytes) (s t : State) : Prop := step conversions buf s = .ok (none,t)
def Consumes (buf : Bytes) (s t : State) : Prop := ∃ i,s.pos = some i ∧ i < buf.length ∧ ∀ j,t.pos = some j → i < j

theorem step_opens (ran : step conversions buf s = .ok (out,t)) : ∃ i op,s.pos = some i ∧ buf[i]? = some op ∧
    ((out.isSome = true ∧ pop {s with pos := some (i+1)} = .ok (out.getD .undefined,t)) ∨ out = none ∧
      ∃ act,(op.toNat,act) ∈ opcodes conversions buf ∧ act {s with pos := some (i+1)} = .ok ((),t)) := by
  obtain ⟨⟨got,u⟩,first,rest⟩ := Fallible.bind_ok ran
  cases got with
  | none => cases rest
  | some op =>
    unfold u8 at first
    split at first
    · cases first
    · rename_i i place
      obtain ⟨there,rfl⟩ := Prod.mk.inj (Except.ok.inj first)
      refine ⟨i,op,place,there,?_⟩
      dsimp only at rest
      split at rest
      · cases rest
        exact .inl ⟨rfl,rfl⟩
      · cases found : (opcodes conversions buf).lookup op.toNat with
        | some act =>
          rw [found] at rest
          have rest : (act {s with pos := some (i+1)} >>= fun after => .ok (none,after.2)) = .ok (out,t) := rest
          obtain ⟨⟨⟨⟩,w⟩,acted,last⟩ := Fallible.bind_ok rest
          cases last
          obtain ⟨left,right,shape,_⟩ := lookup_eq_some_iff.mp found
          exact .inr ⟨rfl,act,shape ▸ mem_append_right _ mem_cons_self,acted⟩
        | none => rw [found] at rest; cases rest

theorem clean_moved (clean : s.Clean) (place : Option Nat) : ({s with pos := place} : State).Clean := {clean with}

theorem continues_clean (clean : s.Clean) (continues : Continues conversions buf s t) : t.Clean ∧ Consumes buf s t := by
  obtain ⟨i,op,place,there,⟨some_,_⟩ | ⟨_,act,listed,acted⟩⟩ := step_opens continues
  · cases some_
  · obtain ⟨cleaned,moved,_⟩ := opcodes_keep _ listed _ _ _ (clean_moved clean _) acted
    refine ⟨cleaned,i,place,(List.getElem?_eq_some_iff.mp there).1,fun j ends => ?_⟩
    rw [ends] at moved
    exact moved

abbrev Reaches (conversions : Conversions) (buf : Bytes) (pos : Nat) : State → Prop :=
  Reached (· = .start pos) (Continues conversions buf)

theorem reaches_clean (reached : Reaches conversions buf pos s) : s.Clean :=
  reached.invariant State.Clean
    (by
      rintro _ rfl
      exact ⟨fun v no => (by cases no),fun row no => (by cases no),fun o no => (by cases no),fun name no => (by cases no)⟩)
    fun _ _ _ clean continues => (continues_clean clean continues).1

def left (buf : Bytes) : Option Nat → Nat
  | none => 1
  | some i => buf.length-i+2

theorem run_ends (clean : s.Clean) (enough : left buf s.pos ≤ fuel) :
    ∃ answer,run conversions buf fuel s = some answer := by
  induction fuel generalizing s with
  | zero =>
    unfold left at enough
    split at enough <;> omega
  | succ fuel ih =>
    unfold run
    cases ran : step conversions buf s with
    | error thrown => exact ⟨_,rfl⟩
    | ok both =>
      obtain ⟨out,t⟩ := both
      cases out with
      | some v => exact ⟨_,rfl⟩
      | none =>
        obtain ⟨cleaned,i,place,within,further⟩ := continues_clean clean ran
        refine ih cleaned ?_
        rw [place] at enough
        dsimp only [left] at enough
        unfold left
        split
        · omega
        · rename_i j ends
          have := further j ends
          omega

end Runs

section Flattening

def tensorAt (heap : Heap) : Value → Option Ref
  | .object ref => match heap[ref]? with
    | some (.tensor ..) => some ref
    | _ => none
  | _ => none

def entriesOf (heap : Heap) : Value → Option Rows
  | .object ref => match heap[ref]? with
    | some (.ordered rows) | some (.map rows) => some rows
    | _ => none
  | _ => none

def joined (path k : Str) : Str := if path = [] then k else path ++ '.' :: k
def metadataKey : Str := "_metadata".toList

abbrev Named := List (Str × Ref)

def flatten (heap : Heap) : Nat → Value → Str → Named → Option Named
  | 0,_,_,_ => none
  | fuel+1,obj,path,out => match tensorAt heap obj with
    | some ref => some (mapSet path ref out)
    | none => match entriesOf heap obj with
      | none => some out
      | some rows => rows.foldlM (fun out row => match row.1 with
        | .string k => if k = metadataKey then some out else flatten heap fuel row.2 (joined path k) out
        | _ => some out) out

variable {heap : Heap}

def Child (heap : Heap) (v w : Value) : Prop :=
  tensorAt heap v = none ∧ ∃ rows,entriesOf heap v = some rows ∧ ∃ k,(.string k,w) ∈ rows ∧ k ≠ metadataKey

inductive Holds (heap : Heap) : Value → Str → Str → Ref → Prop
  | tensor {v path ref} : tensorAt heap v = some ref → Holds heap v path path ref
  | child {v w path k name ref rows} : tensorAt heap v = none → entriesOf heap v = some rows → (.string k,w) ∈ rows →
    k ≠ metadataKey → Holds heap w (joined path k) name ref → Holds heap v path name ref

structure Flat (heap : Heap) (v : Value) (path : Str) (out out' : Named) : Prop where
  distinct : (out.map (·.1)).Nodup → (out'.map (·.1)).Nodup
  names : ∀ name,name ∈ out'.map (·.1) ↔ name ∈ out.map (·.1) ∨ ∃ ref,Holds heap v path name ref
  rows : ∀ row ∈ out',row ∈ out ∨ Holds heap v path row.1 row.2

def HoldsRows (heap : Heap) (rows : Rows) (path name : Str) (ref : Ref) : Prop :=
  ∃ k w,(.string k,w) ∈ rows ∧ k ≠ metadataKey ∧ Holds heap w (joined path k) name ref

variable {rows : Rows} {v : Value}

theorem holds_rows (dictionary : tensorAt heap v = none)
    (entries : entriesOf heap v = some rows) : Holds heap v path name ref ↔ HoldsRows heap rows path name ref := by
  constructor
  · intro holds
    cases holds with
    | tensor found => rw [dictionary] at found; cases found
    | child _ others member apart below =>
      rw [entries] at others
      cases others
      exact ⟨_,_,member,apart,below⟩
  · rintro ⟨k,w,member,apart,below⟩
    exact .child dictionary entries member apart below

variable {out out' : Named} {fuel : Nat} {path : Str}

theorem fold_flat
    (each : ∀ v path out out',flatten heap fuel v path out = some out' → Flat heap v path out out') (rows : Rows)
    (ran : rows.foldlM (fun out row => match row.1 with
      | .string k => if k = metadataKey then some out else flatten heap fuel row.2 (joined path k) out
      | _ => some out) out = some out') :
    ((out.map (·.1)).Nodup → (out'.map (·.1)).Nodup) ∧
      (∀ name,name ∈ out'.map (·.1) ↔ name ∈ out.map (·.1) ∨ ∃ ref,HoldsRows heap rows path name ref) ∧
      ∀ row ∈ out',row ∈ out ∨ HoldsRows heap rows path row.1 row.2 := by
  induction rows generalizing out with
  | nil =>
    cases ran
    refine ⟨id,fun name => ⟨.inl,?_⟩,fun row member => .inl member⟩
    rintro (old | ⟨ref,k,w,member,_⟩)
    · exact old
    · cases member
  | cons row rest ih =>
    rw [foldlM_cons] at ran
    obtain ⟨middle,first,later⟩ := Option.bind_eq_some_iff.mp ran
    obtain ⟨distinct,names,kept⟩ := ih later
    have weak {name : Str} {ref : Ref} (holds : HoldsRows heap rest path name ref) : HoldsRows heap (row :: rest) path name ref := by
      obtain ⟨k,w,member,more⟩ := holds
      exact ⟨k,w,mem_cons_of_mem _ member,more⟩
    have skipped (same : middle = out) (nothing : ∀ k,row.1 = .string k → k = metadataKey) :
        ((out.map (·.1)).Nodup → (out'.map (·.1)).Nodup) ∧
          (∀ name,name ∈ out'.map (·.1) ↔ name ∈ out.map (·.1) ∨ ∃ ref,HoldsRows heap (row :: rest) path name ref) ∧
          ∀ other ∈ out',other ∈ out ∨ HoldsRows heap (row :: rest) path other.1 other.2 := by
      subst same
      refine ⟨distinct,fun name => (names name).trans (or_congr_right ⟨?_,?_⟩),fun other member => (kept other member).imp id weak⟩
      · exact fun ⟨ref,holds⟩ => ⟨ref,weak holds⟩
      · rintro ⟨ref,k,w,member,apart,below⟩
        rcases mem_cons.mp member with rfl | member
        · exact absurd (nothing k rfl) apart
        · exact ⟨ref,k,w,member,apart,below⟩
    split at first
    · rename_i k text
      split at first
      · rename_i metadata
        refine skipped (Option.some.inj first).symm fun other same => ?_
        rw [text] at same
        cases same
        exact metadata
      · rename_i apart
        have flat := each _ _ _ _ first
        have here : (.string k,row.2) ∈ row :: rest := by
          rw [←text]; exact mem_cons_self
        refine ⟨fun start => distinct (flat.distinct start),fun name => ?_,fun other member => ?_⟩
        · rw [names,flat.names,or_assoc]
          refine or_congr_right ⟨?_,?_⟩
          · rintro (⟨ref,holds⟩ | ⟨ref,holds⟩)
            · exact ⟨ref,k,row.2,here,apart,holds⟩
            · exact ⟨ref,weak holds⟩
          · rintro ⟨ref,k',w,member,apart',below⟩
            rcases mem_cons.mp member with rfl | member
            · cases text; exact .inl ⟨ref,below⟩
            · exact .inr ⟨ref,k',w,member,apart',below⟩
        · rcases kept other member with old | holds
          · exact (flat.rows other old).imp id fun below => ⟨k,row.2,here,apart,below⟩
          · exact .inr (weak holds)
    · rename_i other
      exact skipped (Option.some.inj first).symm fun k same => absurd same (other k)

theorem flatten_flat (fuel : Nat) : ∀ v path out out',flatten heap fuel v path out = some out' → Flat heap v path out out' := by
  induction fuel with
  | zero => exact fun v path out out' ran => (by cases ran)
  | succ fuel ih =>
    intro v path out out' ran
    unfold flatten at ran
    cases found : tensorAt heap v with
    | some ref =>
      rw [found] at ran
      cases ran
      have only {name : Str} {other : Ref} : Holds heap v path name other ↔ name = path ∧ other = ref := by
        constructor
        · intro holds
          cases holds with
          | tensor same => rw [found] at same; cases same; exact ⟨rfl,rfl⟩
          | child no => rw [found] at no; cases no
        · rintro ⟨rfl,rfl⟩
          exact .tensor found
      refine ⟨mapSet_nodup,fun name => ?_,fun row member => ?_⟩
      · rw [mapSet_keys]
        simp only [only,exists_and_left,exists_eq,and_true]
        exact or_comm
      · rcases mapSet_mem member with rfl | old
        · exact .inr (only.mpr ⟨rfl,rfl⟩)
        · exact .inl old
    | none =>
      rw [found] at ran
      dsimp only at ran
      cases entries : entriesOf heap v with
      | none =>
        rw [entries] at ran
        cases ran
        have nothing {name : Str} {ref : Ref} : ¬Holds heap v path name ref := by
          intro holds
          cases holds with
          | tensor same => rw [found] at same; cases same
          | child _ same => rw [entries] at same; cases same
        exact ⟨id,fun name => ⟨.inl,fun either => either.elim id fun ⟨ref,holds⟩ => (nothing holds).elim⟩,fun row => .inl⟩
      | some rows =>
        rw [entries] at ran
        obtain ⟨distinct,names,kept⟩ := fold_flat ih rows ran
        exact ⟨distinct,fun name => by simp only [names,holds_rows found entries],
          fun row member => (kept row member).imp id (holds_rows found entries).mpr⟩

-- So many calls are enough for a value, under every name and on every map.
def Ends (heap : Heap) (fuel : Nat) (v : Value) : Prop := ∀ path out,∃ out',flatten heap fuel v path out = some out'

theorem fold_ends (each : ∀ k w,(.string k,w) ∈ rows → k ≠ metadataKey → Ends heap fuel w) (out : Named) :
    ∃ out',rows.foldlM (fun out row => match row.1 with
      | .string k => if k = metadataKey then some out else flatten heap fuel row.2 (joined path k) out
      | _ => some out) out = some out' := by
  induction rows generalizing out with
  | nil => exact ⟨out,rfl⟩
  | cons row rest ih =>
    have later := ih fun k w member => each k w (mem_cons_of_mem _ member)
    obtain ⟨key,w⟩ := row
    simp only [foldlM_cons,Option.bind_eq_bind]
    split
    · rename_i k
      split
      · exact later out
      · rename_i apart
        obtain ⟨middle,first⟩ := each k w mem_cons_self apart (joined path k) out
        rw [first]
        exact later middle
    · exact later out

theorem fold_reached
    (ran : rows.foldlM (fun out row => match row.1 with
      | .string k => if k = metadataKey then some out else flatten heap fuel row.2 (joined path k) out
      | _ => some out) out = some out') (member : (.string k,w) ∈ rows) (apart : k ≠ metadataKey) :
    ∃ before after,flatten heap fuel w (joined path k) before = some after := by
  induction rows generalizing out with
  | nil => cases member
  | cons row rest ih =>
    rw [foldlM_cons] at ran
    obtain ⟨middle,first,later⟩ := Option.bind_eq_some_iff.mp ran
    rcases mem_cons.mp member with rfl | member
    · dsimp only at first
      rw [if_neg apart] at first
      exact ⟨out,middle,first⟩
    · exact ih later member

theorem ends_of_children (each : ∀ w,Child heap v w → Ends heap fuel w) : Ends heap (fuel+1) v := by
  intro path out
  unfold flatten
  cases found : tensorAt heap v with
  | some ref => exact ⟨_,rfl⟩
  | none =>
    cases entries : entriesOf heap v with
    | none => exact ⟨_,rfl⟩
    | some rows => exact fold_ends (fun k w member apart => each w ⟨found,rows,entries,k,member,apart⟩) out

theorem child_ends (ran : flatten heap (fuel+1) v path out = some out') (child : Child heap v w) :
    ∃ path out out',flatten heap fuel w path out = some out' := by
  obtain ⟨found,rows,entries,k,member,apart⟩ := child
  unfold flatten at ran
  rw [found,entries] at ran
  exact ⟨_,fold_reached ran member apart⟩

abbrev Below (heap : Heap) (w v : Value) : Prop := Child heap v w

theorem flatten_acc (fuel : Nat) (ran : flatten heap fuel v path out = some out') : Acc (Below heap) v := by
  induction fuel generalizing v path out out' with
  | zero => cases ran
  | succ fuel ih =>
    refine .intro v fun w child => ?_
    obtain ⟨_,_,_,below⟩ := child_ends ran child
    exact ih below

theorem fold_more
    (each : ∀ v path out out',flatten heap fuel v path out = some out' → flatten heap (fuel+1) v path out = some out')
    (ran : rows.foldlM (fun out row => match row.1 with
      | .string k => if k = metadataKey then some out else flatten heap fuel row.2 (joined path k) out
      | _ => some out) out = some out') :
    rows.foldlM (fun out row => match row.1 with
      | .string k => if k = metadataKey then some out else flatten heap (fuel+1) row.2 (joined path k) out
      | _ => some out) out = some out' := by
  induction rows generalizing out with
  | nil => exact ran
  | cons row rest ih =>
    rw [foldlM_cons] at ran ⊢
    obtain ⟨middle,first,later⟩ := Option.bind_eq_some_iff.mp ran
    refine Option.bind_eq_some_iff.mpr ⟨middle,?_,ih later⟩
    split at first
    · split at first
      · rename_i same
        rw [if_pos same]
        exact first
      · rename_i apart
        rw [if_neg apart]
        exact each _ _ _ _ first
    · exact first

theorem flatten_more (fuel : Nat) : ∀ v path out out',flatten heap fuel v path out = some out' →
    flatten heap (fuel+1) v path out = some out' := by
  induction fuel with
  | zero => exact fun v path out out' ran => (by cases ran)
  | succ fuel ih =>
    intro v path out out' ran
    rw [flatten] at ran ⊢
    cases found : tensorAt heap v with
    | some ref => rw [found] at ran; exact ran
    | none =>
      rw [found] at ran
      cases entries : entriesOf heap v with
      | none => rw [entries] at ran; exact ran
      | some rows => rw [entries] at ran; exact fold_more ih ran

theorem Ends.mono (ends : Ends heap fuel v) (within : fuel ≤ more) : Ends heap more v := by
  induction within with
  | refl => exact ends
  | step _ ih => exact fun path out => (ih path out).imp fun out' => flatten_more _ v path out out'

theorem acc_ends (acc : Acc (Below heap) v) : ∃ fuel,Ends heap fuel v := by
  induction acc with
  | intro v _ ih =>
    have all : ∀ rows : Rows,(∀ k w,(.string k,w) ∈ rows → k ≠ metadataKey → Child heap v w) →
        ∃ fuel,∀ k w,(.string k,w) ∈ rows → k ≠ metadataKey → Ends heap fuel w := by
      intro rows children
      induction rows with
      | nil => exact ⟨0,fun k w no => (by cases no)⟩
      | cons row rest more =>
        obtain ⟨later,enough⟩ := more fun k w member => children k w (mem_cons_of_mem _ member)
        obtain ⟨key,value⟩ := row
        by_cases named : ∃ k,key = .string k ∧ k ≠ metadataKey
        · obtain ⟨k,rfl,apart⟩ := named
          obtain ⟨first,ends⟩ := ih value (children k value mem_cons_self apart)
          refine ⟨max first later,fun k' w member apart' => ?_⟩
          rcases mem_cons.mp member with same | member
          · cases same; exact ends.mono (Nat.le_max_left _ _)
          · exact (enough k' w member apart').mono (Nat.le_max_right _ _)
        · refine ⟨later,fun k w member apart => ?_⟩
          rcases mem_cons.mp member with same | member
          · cases same; exact absurd ⟨k,rfl,apart⟩ named
          · exact enough k w member apart
    cases found : tensorAt heap v with
    | some ref => exact ⟨1,ends_of_children fun w child => (by rw [Child,found] at child; cases child.1)⟩
    | none =>
      cases entries : entriesOf heap v with
      | none =>
        refine ⟨1,ends_of_children fun w child => ?_⟩
        obtain ⟨_,rows,same,_⟩ := child
        rw [entries] at same
        cases same
      | some rows =>
        obtain ⟨fuel,enough⟩ := all rows fun k w member apart => ⟨found,rows,entries,k,member,apart⟩
        refine ⟨fuel+1,ends_of_children fun w child => ?_⟩
        obtain ⟨_,others,same,k,member,apart⟩ := child
        rw [entries] at same
        cases same
        exact enough k w member apart

-- No dictionary below a value holds itself, however deep, under names that count.
def Acyclic (heap : Heap) (v : Value) : Prop :=
  ¬∃ w,Relation.ReflTransGen (Child heap) v w ∧ Relation.TransGen (Child heap) w w

theorem not_self_of_acc {α : Type} {r : α → α → Prop} {a : α} (acc : Acc r a) : ¬r a a := by
  induction acc with
  | intro a _ ih => exact fun loop => ih a loop loop

theorem acc_acyclic (acc : Acc (Below heap) v) : Acyclic heap v := by
  rintro ⟨w,path,cycle⟩
  have below : Acc (Below heap) w := by
    clear cycle
    induction path with
    | refl => exact acc
    | tail _ step ih => exact ih.inv step
  have looped : Relation.TransGen (Below heap) w w := Relation.transGen_swap.mpr cycle
  exact not_self_of_acc below.transGen looped

theorem Child.place {v w : Value} (child : Child heap v w) : ∃ ref : Fin heap.length,v = .object ref := by
  obtain ⟨-,rows,entries,-⟩ := child
  unfold entriesOf at entries
  split at entries
  · rename_i ref
    split at entries
    · rename_i found
      exact ⟨⟨ref,(List.getElem?_eq_some_iff.mp found).1⟩,rfl⟩
    · rename_i found
      exact ⟨⟨ref,(List.getElem?_eq_some_iff.mp found).1⟩,rfl⟩
    · cases entries
  · cases entries

theorem acyclic_acc (acyclic : Acyclic heap v) : Acc (Below heap) v := by
  let Places := {ref : Fin heap.length // Relation.ReflTransGen (Child heap) v (.object ref.val)}
  let under (x y : Places) : Prop := Relation.TransGen (Child heap) (.object y.val.val) (.object x.val.val)
  have : IsTrans Places under := ⟨fun _ _ _ first second => second.trans first⟩
  have : Std.Irrefl under := ⟨fun x cycle => acyclic ⟨_,x.property,cycle⟩⟩
  have founded : WellFounded under := Finite.wellFounded_of_trans_of_irrefl under
  have all (x : Places) : Acc (Below heap) (.object x.val.val) := by
    induction founded.apply x with
    | intro x _ ih =>
      refine .intro _ fun w child => ?_
      by_cases inner : ∃ u,Child heap w u
      · obtain ⟨u,grandchild⟩ := inner
        obtain ⟨ref,rfl⟩ := grandchild.place
        exact ih ⟨ref,x.property.tail child⟩ (.single child)
      · exact .intro _ fun u grandchild => absurd ⟨u,grandchild⟩ inner
  refine .intro _ fun w child => ?_
  by_cases inner : ∃ u,Child heap w u
  · obtain ⟨u,grandchild⟩ := inner
    obtain ⟨ref,rfl⟩ := grandchild.place
    exact all ⟨ref,.single child⟩
  · exact .intro _ fun u grandchild => absurd ⟨u,grandchild⟩ inner

def Flattens (heap : Heap) (v : Value) : Prop := ∃ fuel out,flatten heap fuel v [] [] = some out ∧
  (out.map (·.1)).Nodup ∧ (∀ name,name ∈ out.map (·.1) ↔ ∃ ref,Holds heap v [] name ref) ∧
  ∀ row ∈ out,Holds heap v [] row.1 row.2

theorem flattens_iff : Flattens heap v ↔ Acyclic heap v := by
  constructor
  · rintro ⟨fuel,out,ran,_⟩
    exact acc_acyclic (flatten_acc fuel ran)
  · intro acyclic
    obtain ⟨fuel,ends⟩ := acc_ends (acyclic_acc acyclic)
    obtain ⟨out,ran⟩ := ends [] []
    obtain ⟨distinct,names,rows⟩ := flatten_flat fuel _ _ _ _ ran
    refine ⟨fuel,out,ran,distinct .nil,fun name => ?_,fun row member => ?_⟩
    · simpa using names name
    · exact (rows row member).resolve_left (not_mem_nil)

end Flattening

structure Read (conversions : Conversions) (buf : Bytes) (pos : Nat) : Prop where
  ends : ∃ answer,unpickle conversions buf pos = some answer
  consumes : ∀ s t,Reaches conversions buf pos s → Continues conversions buf s t → Consumes buf s t
  allowed : ∀ s,Reaches conversions buf pos s → ∀ name,.function name ∈ s.stack ∨ name ∈ s.applied → name ∈ functions
  flattens : ∀ v s,unpickle conversions buf pos = some (.ok (v,s)) → Flattens s.heap v

theorem pickles_read (conversions : Conversions) (buf : Bytes) (pos : Nat) : Read conversions buf pos ↔
    ∀ v s,unpickle conversions buf pos = some (.ok (v,s)) → Acyclic s.heap v := by
  constructor
  · exact fun read v s got => flattens_iff.mp (read.flattens v s got)
  · intro acyclic
    refine ⟨?_,fun s t reached continues => (continues_clean (reaches_clean reached) continues).2,fun s reached name => ?_,
      fun v s got => flattens_iff.mpr (acyclic v s got)⟩
    · have reached : Reaches conversions buf pos (.start pos) := .start rfl
      exact run_ends (reaches_clean reached) (Nat.le_refl _)
    · rintro (held | applied)
      · exact (reaches_clean reached).stack _ held name rfl
      · exact (reaches_clean reached).applied name applied

def cyclic : Bytes := [0x7d,0x71,0,0x55,1,0x61,0x68,0,0x73,0x2e]
def plainly : Conversions := ⟨fun _ _ => none,fun _ _ => none⟩

theorem cyclic_unread : ¬Read plainly cyclic 0 := by
  intro read
  have returned : unpickle plainly cyclic 0 = some (.ok (.object 0,⟨some 10,[],[(some 0,.object 0)],[],
      [.map [(.string "a".toList,.object 0)]],[]⟩)) := by rfl
  have acyclic := flattens_iff.mp (read.flattens _ _ returned)
  have child : Child [.map [(.string "a".toList,.object 0)]] (.object 0) (.object 0) :=
    ⟨rfl,_,rfl,"a".toList,mem_cons_self,by decide⟩
  exact acyclic ⟨_,.refl,.single child⟩

end HologramLive.Pickle

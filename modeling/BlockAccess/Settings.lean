import BlockAccess.Failure

/-!
# Settings

The settings of a client assign a value to each key or leave it unset.  A new client has every key
at its initial value.  Values are kept as text and read when they are asked for, as a byte count or
as an integer, so a malformed value does no harm until then.
-/

namespace BlockAccess

/-- A value, or none, for each key. -/
structure Settings where
  value? : Key → Option Text

namespace Settings

/-- The settings of a new client. -/
def initial : Settings := ⟨fun k => some k.initial⟩

/-- Whether a key has a value. -/
def contains (s : Settings) (k : Key) : Bool := (s.value? k).isSome

/-- The settings with another value for a key. -/
def set (s : Settings) (k : Key) (v : Text) : Settings :=
  ⟨fun l => if l = k then some v else s.value? l⟩

/-- The settings without a value for a key. -/
def unset (s : Settings) (k : Key) : Settings :=
  ⟨fun l => if l = k then none else s.value? l⟩

/-- A value as a byte count. -/
def byteCount (k : Key) (v : Text) : Except Failure UInt64 :=
  match ByteCount.parse v with
  | .ok n => .ok n
  | .error why => .error (.settings (.byteCount (some k) v why))

/-- A value as an integer of 64 bits. -/
def integer (k : Key) (v : Text) : Except Failure Int64 :=
  if v.isEmpty then .error (.settings (.notAnInteger k v))
  else
    match (Numeral.whole? v).bind Numeral.toInt64? with
    | some i => .ok i
    | none => .error (.settings (.notAnInteger k v))

/-- The value of a key. -/
def get (s : Settings) (k : Key) : Except Failure Text :=
  match s.value? k with
  | some v => .ok v
  | none => .error (.settings (.unset k))

/-- The value of a key as a byte count. -/
def getBytes (s : Settings) (k : Key) : Except Failure UInt64 :=
  match s.get k with
  | .error f => .error f
  | .ok v => byteCount k v

/-- The value of a key as an integer. -/
def getInt (s : Settings) (k : Key) : Except Failure Int64 :=
  match s.get k with
  | .error f => .error f
  | .ok v => integer k v

@[ext] theorem ext {s t : Settings} (h : ∀ k, s.value? k = t.value? k) : s = t := by
  cases s; cases t; congr; exact funext h

@[simp] theorem value?_set (s : Settings) (k l : Key) (v : Text) :
    (s.set k v).value? l = if l = k then some v else s.value? l := rfl

@[simp] theorem value?_unset (s : Settings) (k l : Key) :
    (s.unset k).value? l = if l = k then none else s.value? l := rfl

end Settings

end BlockAccess

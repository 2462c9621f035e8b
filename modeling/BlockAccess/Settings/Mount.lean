import BlockAccess.Settings

/-!
# Mounts

A mount point may have settings of its own.  They are given by name, lie over the settings of the
client, and do not change them; a name that is no key's is kept and has no effect.  A mount looks
the client's settings up when it is asked, so a later change of theirs shows wherever the mount does
not say otherwise.

The path of a local block is part of this module because a mount may move it.
-/

namespace BlockAccess

/-- The settings of a mount point. -/
structure Mount where
  /-- Values by name; of two values for a name the first counts. -/
  overrides : List (Text × Text) := []
  readOnly : Bool := false
  shared : Bool := false
  deriving DecidableEq, Repr

namespace Mount

/-- The mount's own value for a name. -/
def override? (m : Mount) (name : Text) : Option Text :=
  (m.overrides.find? fun e => e.1 == name).map (·.2)

/-- Whether a key has a value, the mount's or the client's. -/
def contains (m : Mount) (s : Settings) (k : Key) : Bool :=
  (m.override? k.name).isSome || s.contains k

/-- The value of a key: the mount's, or else the client's. -/
def get (m : Mount) (s : Settings) (k : Key) : Except Failure Text :=
  match m.override? k.name with
  | some v => .ok v
  | none => s.get k

/-- The value of a key as a byte count. -/
def getBytes (m : Mount) (s : Settings) (k : Key) : Except Failure UInt64 :=
  match m.get s k with
  | .error f => .error f
  | .ok v => Settings.byteCount k v

/-- The value of a key as an integer. -/
def getInt (m : Mount) (s : Settings) (k : Key) : Except Failure Int64 :=
  match m.get s k with
  | .error f => .error f
  | .ok v => Settings.integer k v

/-- A directory without the slashes at its end; the root keeps its only one. -/
def trimSlashes (d : Text) : Text :=
  let kept := (d.reverse.dropWhile (· == 47)).reverse
  if kept.isEmpty then d.take 1 else kept

/-- The path of the file that the worker on this host keeps a block in. -/
def blockPath (m : Mount) (s : Settings) (block : UInt64) : Except Failure Text :=
  match m.get s .storageDirectory with
  | .error f => .error f
  | .ok dir =>
    match m.get s .dataFolder with
    | .error f => .error f
    | .ok folder =>
      .ok (trimSlashes dir ++ text "/" ++ folder ++ text "/" ++ Text.decimal block.toNat)

/-- Names in the order of their bytes. -/
def nameLE : Text → Text → Bool
  | [], _ => true
  | _ :: _, [] => false
  | a :: s, b :: t => a < b || (a == b && nameLE s t)

/-- The mount's own values in the order of their names. -/
def entries (m : Mount) : List (Text × Text) := m.overrides.mergeSort fun a b => nameLE a.1 b.1

end Mount

namespace Settings

/-- The path of a local block for a client without mounts. -/
def blockPath (s : Settings) (block : UInt64) : Except Failure Text := Mount.blockPath {} s block

end Settings

end BlockAccess

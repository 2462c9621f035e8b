import BlockAccess.Text

/-!
# Keys of the settings

There are five settings.  Each has a name under which properties files and mounts speak of it, and a
value that it starts with.
-/

namespace BlockAccess

/-- The settings of a client. -/
inductive Key where
  /-- The size of the packets read from a local block file. -/
  | localPacketSize
  /-- The size of the packets asked of a remote worker. -/
  | remotePacketSize
  /-- How long to wait for a connection, in milliseconds. -/
  | connectTimeout
  /-- The folder for blocks below a storage directory. -/
  | dataFolder
  /-- The storage directory of the first tier. -/
  | storageDirectory
  deriving DecidableEq, Repr

namespace Key

/-- All keys, in their customary order. -/
def all : List Key :=
  [.localPacketSize, .remotePacketSize, .connectTimeout, .dataFolder, .storageDirectory]

/-- The name of a key in properties files and mounts. -/
def name : Key → Text
  | .localPacketSize => text "blkio.user.local.reader.packet.size.bytes"
  | .remotePacketSize => text "blkio.user.network.reader.packet.size.bytes"
  | .connectTimeout => text "blkio.user.network.connect.timeout.ms"
  | .dataFolder => text "blkio.worker.data.folder"
  | .storageDirectory => text "blkio.worker.tieredstore.level0.dirs.path"

/-- The value that a key starts with. -/
def initial : Key → Text
  | .localPacketSize => text "8MB"
  | .remotePacketSize => text "64KB"
  | .connectTimeout => text "30000"
  | .dataFolder => text "blkioworker"
  | .storageDirectory => text "/mnt/ramdisk"

/-- The key of a name, spelled exactly. -/
def ofName? (name : Text) : Option Key := all.find? fun k => k.name == name

theorem ofName?_name (k : Key) : ofName? k.name = some k := by cases k <;> decide

theorem ofName?_eq_some_iff {name : Text} {k : Key} : ofName? name = some k ↔ name = k.name := by
  constructor
  · intro h
    have hname := List.find?_some h
    exact (beq_iff_eq.1 hname).symm
  · rintro rfl
    exact k.ofName?_name

theorem ofName?_eq_none {name : Text} (h : ∀ k : Key, k.name ≠ name) : ofName? name = none := by
  cases hk : ofName? name with
  | none => rfl
  | some k => exact absurd (ofName?_eq_some_iff.1 hk).symm (h k)

end Key

end BlockAccess

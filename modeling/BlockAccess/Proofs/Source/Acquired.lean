import BlockAccess.Opening
import BlockAccess.Proofs.Source.Pinning
import BlockAccess.Proofs.Source.Short

/-!
# Blocks that were acquired

A block is acquired by opening its file with a shared lock, so what is known of the file then is
known of the block.  It has the length of the file, and the file can be read as a whole or falls
short (`LocalBlock.readable_of_acquire`).  The other way round, a file that can be read and that
nobody has locked exclusively is enough to acquire its block (`LocalBlock.exists_acquire`).
-/

namespace BlockAccess

open Files (Store)

namespace LocalBlock

variable {address : Address} {id size : UInt64} {path : Text} {w w' : Site} {b : LocalBlock}

/-- What has to be in order for a block to be acquired. -/
theorem exists_acquire {S : Bytes} {m : Nat} (address : Address) (id : UInt64) (hsize : size ≠ 0)
    (hk : w.files.Keeps path S) (hfind : w.files.find path = .ok m)
    (hfree : w.files.isExcluded m .shared = false) :
    ∃ b w', acquire address id size path w = (.ok b, w') := by
  have hnode : (w.files.openNode path .read).1 = .ok m := by
    rw [Store.openNode_read_fst hk.readable, hfind]
  obtain ⟨pin, t, hopen⟩ := (w.files.openFile_isOk_iff path .read .shared).2 ⟨m, hnode, rfl, hfree⟩
  obtain ⟨hresult, -⟩ := Files.openFile_site path .read .shared w
  rw [hopen] at hresult
  rcases hopened : Files.openFile path .read .shared w with ⟨x, w₁⟩
  obtain rfl : x = .ok pin := by rwa [hopened] at hresult
  have hthere : (Files.Filed.files w).contents? path = some S := hk.contents
  unfold acquire
  rw [if_neg hsize, hthere, if_neg (by simp), hopened]
  exact ⟨_, _, rfl⟩

theorem ofSettings_eq_ok {m : Mount} {settings : Settings}
    (h : ofSettings m settings address id w = (.ok b, w')) :
    ∃ size path, m.packetSize settings .localPacketSize = .ok size ∧
      m.blockPath settings id = .ok path ∧
      acquire address id size path (note (.openingLocal id path) w) = (.ok b, w') := by
  unfold ofSettings at h
  split at h
  · simp at h
  next size hpackets =>
  split at h
  · simp at h
  next path hpath => exact ⟨size, path, hpackets, hpath, h⟩

theorem files_of_ofSettings_error {m : Mount} {settings : Settings} {f : Failure}
    (h : ofSettings m settings address id w = (.error f, w')) : w'.files = w.files := by
  unfold ofSettings at h
  split at h
  · simp only [Prod.mk.injEq] at h
    rw [← h.2]
  split at h
  · simp only [Prod.mk.injEq] at h
    rw [← h.2]
  next path _ =>
  have hfiles := files_of_acquire_error h
  exact hfiles

end LocalBlock

end BlockAccess

import VirtualLan.Proofs.Delivery

/-! What a message from the relay puts on the interface. The decoder tells failure
by a size of zero, and nobody on the way to the interface asks for it. -/

namespace VirtualLan.Peer
open Program Relay

/-- `WintunSendPacket` gets the decompressed bytes where `uncompress` succeeds, and
is not called otherwise. -/
def Injects (zlib : Zlib) (allocates : Nat → Bool) (world : World) (data : Bytes) : Prop :=
  run (callbackLiteningToServer zlib allocates data) world = (.ok (), { world with
    injected := world.injected ++
      if (zlib.uncompress maxDecompressedSize data).code = zOk then [(zlib.uncompress maxDecompressedSize data).output]
      else [] })

variable {zlib : Zlib} {allocates : Nat → Bool} {data : Bytes}

theorem unpacked_eq (zlib : Zlib) (data : Bytes) : unpacked zlib data =
    if (zlib.uncompress maxDecompressedSize data).code = zOk then (zlib.uncompress maxDecompressedSize data).output
    else [] := by
  simp only [unpacked, decompressZlib]
  split
  · exact List.take_length
  · exact List.take_zero

/-- A message that is no command is injected as it should be exactly when it
decompresses; otherwise an empty packet goes to the interface. -/
theorem callbackLiteningToServer_injects_iff (room : ∀ size, allocates size = true)
    (payload : (bytes "command").isPrefixOf data = false) (world : World) :
    Injects zlib allocates world data ↔ (zlib.uncompress maxDecompressedSize data).code = zOk := by
  rw [Injects, callbackLiteningToServer_run allocates (room _), handled, payload, if_neg Bool.false_ne_true,
    unpacked_eq]
  by_cases restored : (zlib.uncompress maxDecompressedSize data).code = zOk
  · simp only [if_pos restored]
    exact iff_of_true trivial restored
  · simp only [if_neg restored, List.append_nil]
    refine iff_of_false ?_ restored
    intro same
    have injected := congrArg (fun outcome => outcome.2.injected) same
    simp at injected

theorem callbackLiteningToServer_injects_iff_greeting :
    Injects StoredZlib.zlib (fun _ => true) acquainted (StoredZlib.deflate greeting) :=
  (callbackLiteningToServer_injects_iff (fun _ => rfl) (by decide) acquainted).mpr (by decide)

/-- Two bytes that are no stream reach the interface as a packet of no bytes. -/
theorem torn_not_injects :
    (run (callbackLiteningToServer StoredZlib.zlib (fun _ => true) [0x78, 0x9c]) acquainted).2.injected = [[]] ∧
    ¬ Injects StoredZlib.zlib (fun _ => true) acquainted [0x78, 0x9c] := by
  refine ⟨by decide, ?_⟩
  unfold Injects
  decide

end VirtualLan.Peer

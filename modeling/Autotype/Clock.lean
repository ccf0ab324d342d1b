/-!
# Time on a wrapping counter

The clock counts milliseconds in 32 bits and starts over at zero after 2^32 of them. The time since a
reading is therefore the difference of two readings modulo 2^32, which is right across one wrap.
-/

namespace Autotype

/-- Whether at least `span` milliseconds have passed at reading `now` since reading `start`. -/
def elapsed (now start span : UInt32) : Bool :=
  span ≤ now - start

theorem elapsed_iff (now start span : UInt32) :
    elapsed now start span = true ↔ span.toNat ≤ (now - start).toNat := by
  simp [elapsed, UInt32.le_iff_toNat_le]

/-- Of a span of true time, two readings tell what is left of it modulo 2^32. -/
theorem elapsed_ofNat_iff (since passed : Nat) (span : UInt32) :
    elapsed (.ofNat (since + passed)) (.ofNat since) span = true ↔ span.toNat ≤ passed % UInt32.size := by
  have between : UInt32.ofNat (since + passed) - UInt32.ofNat since = UInt32.ofNat passed := by
    rw [UInt32.ofNat_add, UInt32.add_comm, UInt32.add_sub_cancel]
  rw [elapsed_iff, between, UInt32.toNat_ofNat']

@[simp] theorem elapsed_zero (now start : UInt32) : elapsed now start 0 = true := by
  simp [elapsed_iff]

end Autotype

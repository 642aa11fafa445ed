import SecondFactor.Bytes

/-!
# Padding of a message to whole blocks

A message is followed by the bit one, by zeros, and by its length in bits at the end of its last
block. The digests of the SHA family share this form and differ in the size of a block and of the
length.
-/

namespace SecondFactor.Digest

def lengthBytes (size n : Nat) : Bytes :=
  (List.range size).map fun i => UInt8.ofNat (n >>> (8 * (size - 1 - i)))

/-- The message with its padding, for blocks of `block` bytes and a length of `size` bytes. -/
def pad (block size : Nat) (message : Bytes) : Bytes :=
  let used := message.length + 1 + size
  message ++ 0x80 :: (List.replicate ((block - used % block) % block) 0 ++
    lengthBytes size (8 * message.length))

theorem length_pad_mod {block : Nat} (hpos : 0 < block) (size : Nat) (message : Bytes) :
    (pad block size message).length % block = 0 := by
  have hlength : (pad block size message).length =
      message.length + 1 + size + (block - (message.length + 1 + size) % block) % block := by
    simp [pad, lengthBytes]
    omega
  rw [hlength]
  generalize message.length + 1 + size = used
  have hused := Nat.mod_lt used hpos
  rcases Nat.eq_zero_or_pos (used % block) with h | h
  · simp [h]
  · rw [Nat.mod_eq_of_lt (by omega : block - used % block < block), Nat.add_mod,
      Nat.mod_eq_of_lt (by omega : block - used % block < block)]
    have : used % block + (block - used % block) = block := by omega
    rw [this, Nat.mod_self]

end SecondFactor.Digest

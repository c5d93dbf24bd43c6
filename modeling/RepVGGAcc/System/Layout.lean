import RepVGGAcc.Layer.Operands
import RepVGGAcc.Load.ImapLoad
import RepVGGAcc.System.Memory

/-! Where the bytes of the layer lie in the memory: by the layout of the test program,
and as the accelerator brings them together. -/

namespace RepVGGAcc

open ImapLoad (byteOf pixelWord)
open Layer (Operands)

def Memory.byteAt (memory : Memory) (base : BitVec 32) (word byte : Nat) : BitVec 8 :=
  byteOf (memory.word (wordAddr base word)) byte

namespace Layer

variable (settings : Settings) (memory : Memory)

/-- The operands of output channel `och` in the layout of the test program: 16 words for
each pixel and for each kernel tap, four channels to a word. -/
def reference (och : Nat) : Operands where
  w3 := fun tap ch => memory.byteAt settings.w3Addr (144 * och + 16 * tap + ch / 4) (ch % 4)
  w1 := fun ch => memory.byteAt settings.w1Addr (16 * och + ch / 4) (ch % 4)
  imap := fun p ch => memory.byteAt settings.inAddr (16 * p + ch / 4) (ch % 4)
  identity := fun p => memory.byteAt settings.inAddr (16 * p + och / 4) (och % 4)

/-- The group of channels that pass `q` reads for pixel `p`. The group select follows the
convolved pixel, 59 pixels behind the read. -/
def readGroup (q p : Nat) : Nat :=
  if p < 59 ∧ 0 < q then (q + 1) % 2 else q % 2

/-- The channel position whose byte becomes the identity. Its group is that of the output
channel six cycles later, its lane that of the output channel three cycles later. -/
def identityChannel (och p : Nat) : Fin 64 :=
  let second := (if p < 3130 then och else och + 1) / 32 % 2
  let lane := (if second = 1 ∧ 3133 ≤ p then och + 1 else och) % 32
  ⟨32 * second + lane, by omega⟩

/-- The pixels of the passes of output channel `och`, by channel position: position `ch` is
lane `ch % 32` in the pass of group `ch / 32`. -/
def routedPixel (och p : Nat) (ch : Fin 64) : BitVec 8 :=
  memory.byteAt settings.inAddr
    (16 * p + pixelWord (readGroup (2 * och + ch / 32) p) (ch % 32)) (ch % 4)

/-- The operands that the accelerator brings together for output channel `och`. -/
def routed (och : Nat) : Operands where
  w3 := fun tap ch => memory.byteAt settings.w3Addr (36 * och + 16 * tap + ch / 4) (ch % 4)
  w1 := fun ch => memory.byteAt settings.w1Addr (4 * och + ch / 4) (ch % 4)
  imap := routedPixel settings memory och
  identity := fun p => routedPixel settings memory och p (identityChannel och p)

/-- Where all pixels are the same byte, and so are all weights of a kernel, no byte is out
of its place. -/
theorem word_uniform {settings : Settings} {memory : Memory} {x w3 w1 : BitVec 8}
    (imap : ∀ k < 50176, ∀ b < 4, memory.byteAt settings.inAddr k b = x)
    (kernel : ∀ k < 9216, ∀ b < 4, memory.byteAt settings.w3Addr k b = w3)
    (point : ∀ k < 1024, ∀ b < 4, memory.byteAt settings.w1Addr k b = w1) {och r c : Nat}
    (channel : och < 64) (row : r < 56) (column : c < 56) :
    (routed settings memory och).word r c = (reference settings memory och).word r c := by
  have pixel {p : Nat} (inMap : p < 3136) (ch : Fin 64) :
      routedPixel settings memory och p ch = x := by
    refine imap _ ?_ _ (by omega)
    unfold pixelWord readGroup
    split_ifs <;> omega
  refine Operands.word_congr row column (fun tap ch => ?_) (fun ch => ?_)
    (fun p inMap ch => ?_) fun p inMap => ?_
  · exact (kernel _ (by omega) _ (by omega)).trans (kernel _ (by omega) _ (by omega)).symm
  · exact (point _ (by omega) _ (by omega)).trans (point _ (by omega) _ (by omega)).symm
  · exact (pixel inMap ch).trans (imap _ (by omega) _ (by omega)).symm
  · exact (pixel inMap _).trans (imap _ (by omega) _ (by omega)).symm

end Layer

end RepVGGAcc

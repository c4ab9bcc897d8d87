import CosKernel.Lib.Bitmap

/-!
# The physical memory manager (`pmm.c`)

One bit per 4 KB frame, set while the frame is free, and a counter of free
frames kept beside it. Addresses, lengths and the counter are 64-bit words; a
frame number is at most `2 ^ 52` and the bitmap has at most `131072` words, so
frame numbers, word indices and `total_frames` are natural numbers. The field
`base_address` is never read and is left out, as are the log messages.
-/

namespace CosKernel.Pmm

/-- `FRAME_SIZE` -/
def frameSize : UInt64 := 4096

/-- The length of `bitmap_storage`. -/
def bitmapStorageWords : Nat := 131072

/-- `pmm_t`, with the array `bitmap` points to. -/
structure PmmT where
  bitmap : Nat → BitVec 64
  totalFrames : Nat
  freeFrames : UInt64

/-- `pmm_state` and `bitmap_storage` before the first call: static variables are zero. -/
def pmmState : PmmT := ⟨fun _ => 0, 0, 0⟩

/-- `(pmm_state.total_frames + 63) / 64` -/
def PmmT.words (s : PmmT) : Nat := (s.totalFrames + 63) / 64

/-- The number of frames that hold this many bytes, computed in 64 bits. -/
def framesFor (bytes : UInt64) : Nat := ((bytes + frameSize - 1) / frameSize).toNat

/-- The number of the frame at an address. -/
def frameOf (address : UInt64) : Nat := (address / frameSize).toNat

/-! ## Initialisation -/

/-- `pmm_state.bitmap[i] = 0ULL` for all `i` below `bitmap_size`. -/
def clearWords (bitmapSize : Nat) (bitmap : Nat → BitVec 64) : Nat → BitVec 64 :=
  fun i => if i < bitmapSize then 0 else bitmap i

/-- `pmm_initialize` -/
def pmmInitialize (totalMemory : UInt64) (s : PmmT) : PmmT :=
  let totalFrames := framesFor totalMemory
  let bitmapSize := (totalFrames + 63) / 64
  if bitmapStorageWords < bitmapSize then
    ⟨clearWords bitmapStorageWords s.bitmap, bitmapStorageWords * 64, 0⟩
  else ⟨clearWords bitmapSize s.bitmap, totalFrames, 0⟩

/-! ## Ranges -/

/-- Set the bit of a frame and count it. -/
def PmmT.markFree (s : PmmT) (frame : Nat) : PmmT :=
  { s with bitmap := Bitmap.set s.bitmap frame, freeFrames := s.freeFrames + 1 }

/-- Clear the bit of a frame and count it off. -/
def PmmT.markUsed (s : PmmT) (frame : Nat) : PmmT :=
  { s with bitmap := Bitmap.clear s.bitmap frame, freeFrames := s.freeFrames - 1 }

@[simp] theorem markUsed_words (s : PmmT) (f : Nat) : (s.markUsed f).words = s.words := rfl

/-- The body of the loop of `pmm_add_available_range`. -/
def addFrame (frame : Nat) (s : PmmT) : PmmT :=
  if Bitmap.test s.bitmap frame then s else s.markFree frame

/-- The body of the loop of `pmm_reserve_range`. -/
def reserveFrame (frame : Nat) (s : PmmT) : PmmT :=
  if Bitmap.test s.bitmap frame then s.markUsed frame else s

/-- The loop of both range functions over `n` frames from `frame` on, with its `break`. -/
def forFrames (visit : Nat → PmmT → PmmT) : Nat → Nat → PmmT → PmmT
  | 0, _, s => s
  | n + 1, frame, s =>
    if s.words ≤ frame / 64 then s else forFrames visit n (frame + 1) (visit frame s)

/-- The frames of a range, from the first one it touches to the last, cut at `total_frames`. -/
def forRange (visit : Nat → PmmT → PmmT) (address length : UInt64) (s : PmmT) : PmmT :=
  if length = 0 then s
  else
    let startFrame := frameOf address
    let endFrame := framesFor (address + length)
    forFrames visit (min endFrame s.totalFrames - startFrame) startFrame s

/-- `pmm_add_available_range` -/
def pmmAddAvailableRange (address length : UInt64) (s : PmmT) : PmmT :=
  forRange addFrame address length s

/-- `pmm_reserve_range` -/
def pmmReserveRange (address length : UInt64) (s : PmmT) : PmmT :=
  forRange reserveFrame address length s

/-! ## Frames -/

/-- `pmm_allocate_frame`: the address returned, `0` for "out of memory", and the new state. -/
def pmmAllocateFrame (s : PmmT) : UInt64 × PmmT :=
  match Bitmap.firstSet s.bitmap s.words with
  | some frame => (UInt64.ofNat frame * frameSize, s.markUsed frame)
  | none => (0, s)

/-- `pmm_free_frame`: only the word index is checked, neither the frame nor its bit. -/
def pmmFreeFrame (paddr : UInt64) (s : PmmT) : PmmT :=
  let frame := frameOf paddr
  if s.words ≤ frame / 64 then s else s.markFree frame

/-- `pmm_get_available` -/
def pmmGetAvailable (s : PmmT) : UInt64 := s.freeFrames * frameSize

/-! ## Calls -/

/-- The calls made on the manager after `pmm_initialize`. -/
inductive Call where
  | addAvailableRange (address length : UInt64)
  | reserveRange (address length : UInt64)
  | allocateFrame
  | freeFrame (paddr : UInt64)
deriving DecidableEq, Repr

/-- One call. -/
def step (s : PmmT) : Call → PmmT
  | .addAvailableRange address length => pmmAddAvailableRange address length s
  | .reserveRange address length => pmmReserveRange address length s
  | .allocateFrame => (pmmAllocateFrame s).2
  | .freeFrame paddr => pmmFreeFrame paddr s

/-- The ranges of a memory map, added one after the other. -/
def addRanges (ranges : List (UInt64 × UInt64)) (s : PmmT) : PmmT :=
  ranges.foldl (fun s r => pmmAddAvailableRange r.1 r.2 s) s

/-- What `kernel_main` does before it uses frames: `pmm_initialize`, the ranges of the memory
map, and the reservation of the first 2 MB. -/
def boot (totalMemory : UInt64) (ranges : List (UInt64 × UInt64)) : PmmT :=
  pmmReserveRange 0 0x200000 (addRanges ranges (pmmInitialize totalMemory pmmState))

end CosKernel.Pmm

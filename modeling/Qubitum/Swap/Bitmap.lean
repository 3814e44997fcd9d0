import Qubitum.Swap.Tick

/-!
# `Swap.Bitmap` — the active ticks, as a bitmap of three layers

`ActiveTickIndexManager` keeps the ticks with liquidity as bits of 128-bit words. A word of the bottom layer has
128 ticks; the middle layer has a bit for every word of the bottom layer that is not zero, and the top layer one
for every word of the middle layer. The closest active tick is looked for from the top down, with up to two
candidates in every word: the position itself, and the next one in the direction of the search.
-/

namespace Qubitum.Swap

/-- `LayerLevel` -/
inductive LayerLevel where
  | top
  | middle
  | bottom
  deriving DecidableEq, Repr

/-- `TickIndexBitmapWords` of a subnet. -/
abbrev BitmapWords := LayerLevel → Nat → Nat

/-- The offset representation of a tick. -/
def offsetIndex (tick : TickIndex) : Nat := (tick + TickIndex.offset).toNat

/-- `from_offset_index` -/
def fromOffsetIndex (i : Nat) : Option TickIndex := TickIndex.new? (i - TickIndex.offset)

/-- `word_at`, for an offset index -/
def wordAt (i : Nat) : LayerLevel → Nat
  | .bottom => i / 128
  | .middle => i / 128 / 128
  | .top    => i / 128 / 128 / 128

/-- `bit_at`, for an offset index -/
def bitAt (i : Nat) : LayerLevel → Nat
  | .bottom => i % 128
  | .middle => i / 128 % 128
  | .top    => i / 128 / 128 % 128

/-- `layer_to_index` -/
def layerToIndex (word bit : Nat) : Nat := word * 128 + bit

namespace BitmapWords
variable (w : BitmapWords)

/-- One word written. -/
def set (layer : LayerLevel) (word value : Nat) : BitmapWords :=
  Function.update w layer (Function.update (w layer) word value)

def setBit (i : Nat) (layer : LayerLevel) : BitmapWords :=
  w.set layer (wordAt i layer) (w layer (wordAt i layer) ||| 1 <<< bitAt i layer)

/-- The word of an index in a layer with its bit turned off. -/
def cleared (i : Nat) (layer : LayerLevel) : Nat := w layer (wordAt i layer) &&& ((2 ^ 128 - 1) ^^^ 1 <<< bitAt i layer)

def clearBit (i : Nat) (layer : LayerLevel) : BitmapWords := w.set layer (wordAt i layer) (w.cleared i layer)

/-- `ActiveTickIndexManager::insert` -/
def insert (tick : TickIndex) : BitmapWords :=
  if tick < TickIndex.min ∨ TickIndex.max < tick then w
  else
    let i := offsetIndex tick
    ((w.setBit i .top).setBit i .middle).setBit i .bottom

/-- `ActiveTickIndexManager::remove`: an upper bit goes when the word below it is zero. -/
def remove (tick : TickIndex) : BitmapWords :=
  if tick < TickIndex.min ∨ TickIndex.max < tick then w
  else
    let i := offsetIndex tick
    let w := w.clearBit i .bottom
    let w := if w .bottom (wordAt i .bottom) = 0 then w.clearBit i .middle else w
    if w .middle (wordAt i .middle) = 0 then w.clearBit i .top else w

/-- The bits of a word from a position on, in the direction of the search. -/
def bitsFrom (bit : Nat) (lower : Bool) : List Nat :=
  if lower then (List.range (bit + 1)).reverse else List.range' bit (128 - bit)

/-- `find_closest_active_bit_candidates`: the loop stops at an active bit that is not the one asked for. -/
def candidates (word bit : Nat) : List Nat → List Nat
  | [] => []
  | b :: rest =>
      if word.testBit b then (if b ≠ bit then [b] else b :: candidates word bit rest)
      else candidates word bit rest

def findClosestActiveBitCandidates (word bit : Nat) (lower : Bool) : List Nat :=
  candidates word bit (bitsFrom bit lower)

/-- The bit to start from in a word: all of a word before or after the one of the position counts. -/
def startBit (word ownWord ownBit : Nat) : Nat :=
  if word < ownWord then 127 else if ownWord < word then 0 else ownBit

/-- The closer one of two offset indexes. -/
def closer (lower : Bool) (found : Nat) : Option Nat → Nat
  | none        => found
  | some result => if lower then (if result < found then found else result)
      else (if found < result then found else result)

/-- The candidates of a word of a layer for the position `i`. -/
def layerCandidates (i : Nat) (lower : Bool) (layer : LayerLevel) (word : Nat) : List Nat :=
  findClosestActiveBitCandidates (w layer word) (startBit word (wordAt i layer) (bitAt i layer)) lower

def findClosest (tick : TickIndex) (lower : Bool) : Option TickIndex :=
  if tick < TickIndex.min ∨ TickIndex.max < tick then none
  else
    let i := offsetIndex tick
    let found := (w.layerCandidates i lower .top (wordAt i .top)).foldl
      (fun found bit0 =>
        let word1 := layerToIndex 0 bit0
        (w.layerCandidates i lower .middle word1).foldl
          (fun found bit1 =>
            let word2 := layerToIndex word1 bit1
            match (w.layerCandidates i lower .bottom word2).head? with
            | none      => found
            | some bit2 => some (closer lower (layerToIndex word2 bit2) found))
          found)
      none
    found.bind fromOffsetIndex

def findClosestLower (tick : TickIndex) : Option TickIndex := w.findClosest tick true

def findClosestHigher (tick : TickIndex) : Option TickIndex := w.findClosest tick false

def tickIsActive (tick : TickIndex) : Bool := (w.findClosestLower tick).getD TickIndex.max = tick
end BitmapWords
end Qubitum.Swap

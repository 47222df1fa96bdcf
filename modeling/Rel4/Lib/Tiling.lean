import Mathlib.Data.List.Pairwise
import Mathlib.Data.BitVec

/-!
Ranges of words that may go around the top of the word, and how they are tiled
by aligned blocks of `2 ^ bits` words.

A range is cut from its start, a block that fits and is aligned at a time.
Whatever sizes are chosen, the tiles are apart and make up the range. Where a
block smaller than a granule comes off only if it must, every granule that lies
wholly in the range is in a tile that is not smaller.
-/

namespace Rel4.Lib.Tiling
open BitVec (ofNat le_def toNat_ofNat lt_def toNat_sub_of_le sub_sub sub_self ofNat_add add_assoc)

variable {g k : Nat} {w : Nat}

/-! ## Ranges and tiles -/

/-- The words from `start` up to `stop`, modulo the size of the word. -/
structure Arc (w : Nat) where
  start : BitVec w
  stop : BitVec w

def Arc.length (r : Arc w) : Nat := (r.stop - r.start).toNat

def Arc.Has (r : Arc w) (p : BitVec w) : Prop := (p - r.start).toNat < r.length

/-- The range without its first `2 ^ k` words. -/
def Arc.drop (r : Arc w) (k : Nat) : Arc w := ⟨r.start + ofNat w (2 ^ k), r.stop⟩

structure Tile (w : Nat) where
  base : BitVec w
  bits : Nat
  deriving DecidableEq, Repr

def Tile.Has (b : Tile w) (p : BitVec w) : Prop := (p - b.base).toNat < 2 ^ b.bits

def Tile.Aligned (b : Tile w) : Prop := 2 ^ b.bits ∣ b.base.toNat

/-- No word lies in both tiles. -/
def Tile.Apart (b c : Tile w) : Prop := ∀ p, b.Has p → ¬ c.Has p

instance : Std.Symm (@Tile.Apart w) := ⟨fun _ _ h p hc hb => h p hb hc⟩

variable {l : List (Tile w)} {r : Arc w} {b : Tile w}

theorem Arc.lt_of_two_pow_le_length (h : 2 ^ k ≤ r.length) : k < w :=
  (Nat.pow_lt_pow_iff_right (by omega)).mp (lt_of_le_of_lt h (r.stop - r.start).isLt)

theorem toNat_ofNat_two_pow (h : k < w) : (ofNat w (2 ^ k)).toNat = 2 ^ k := by
  rw [toNat_ofNat, Nat.mod_eq_of_lt (Nat.pow_lt_pow_right (by omega) h)]

/-- Moving the origin by `2 ^ k`: a word before it comes out at the top. -/
theorem toNat_sub_add_two_pow (h : k < w) (p x : BitVec w) :
    (p - (x + ofNat w (2 ^ k))).toNat =
      if 2 ^ k ≤ (p - x).toNat then (p - x).toNat - 2 ^ k
      else 2 ^ w - (2 ^ k - (p - x).toNat) := by
  have hk := toNat_ofNat_two_pow h
  rw [← sub_sub]
  split
  · rename_i hle
    rw [toNat_sub_of_le (by rw [le_def, hk]; exact hle), hk]
  · rename_i hlt
    rw [BitVec.toNat_sub_of_lt (by rw [lt_def, hk]; omega), hk]

theorem Arc.length_drop (h : 2 ^ k ≤ r.length) : (r.drop k).length = r.length - 2 ^ k := by
  have hsub := toNat_sub_add_two_pow (Arc.lt_of_two_pow_le_length h) r.stop r.start
  exact hsub.trans (if_pos h)

/-- A word of the range is in the first block or in what is left, and not in both. -/
theorem Arc.has_iff (h : 2 ^ k ≤ r.length) (p : BitVec w) :
    r.Has p ↔ (Tile.Has ⟨r.start, k⟩ p ∨ (r.drop k).Has p) := by
  have hk := Arc.lt_of_two_pow_le_length h
  have hsub := toNat_sub_add_two_pow hk p r.start
  have hlen : r.length < 2 ^ w := (r.stop - r.start).isLt
  simp only [Arc.Has, Tile.Has, Arc.length_drop h]
  change _ ↔ _ ∨ (p - (r.start + ofNat w (2 ^ k))).toNat < _
  rw [hsub]
  split <;> omega

theorem Arc.not_has_drop (h : 2 ^ k ≤ r.length) (hp : Tile.Has ⟨r.start, k⟩ p) :
    ¬ (r.drop k).Has p := by
  have hk := Arc.lt_of_two_pow_le_length h
  have hsub := toNat_sub_add_two_pow hk p r.start
  have hlen : r.length < 2 ^ w := (r.stop - r.start).isLt
  have hlt : (p - r.start).toNat < 2 ^ k := hp
  simp only [Arc.Has, Arc.length_drop h]
  change ¬ (p - (r.start + ofNat w (2 ^ k))).toNat < _
  rw [hsub, if_neg (by omega)]
  omega

/-- The last block of its size ends at the top of the word at the latest. -/
theorem Tile.Aligned.add_le (h : b.Aligned) (hb : b.bits ≤ w) :
    b.base.toNat + 2 ^ b.bits ≤ 2 ^ w := by
  obtain ⟨n, hn⟩ := h
  obtain ⟨m, hm⟩ : 2 ^ b.bits ∣ 2 ^ w := Nat.pow_dvd_pow 2 hb
  have hlt := b.base.isLt
  rw [hn, hm] at hlt ⊢
  have hnm : n < m := Nat.lt_of_mul_lt_mul_left hlt
  calc 2 ^ b.bits * n + 2 ^ b.bits = 2 ^ b.bits * (n + 1) := by rw [Nat.mul_add, Nat.mul_one]
    _ ≤ 2 ^ b.bits * m := Nat.mul_le_mul_left _ hnm

/-- An aligned block is a class of the division by its size. -/
theorem Tile.Aligned.has_iff (h : b.Aligned) (hb : b.bits ≤ w) (p : BitVec w) :
    b.Has p ↔ p.toNat / 2 ^ b.bits = b.base.toNat / 2 ^ b.bits := by
  have hend := h.add_le hb
  have hpos : 0 < 2 ^ b.bits := Nat.two_pow_pos _
  have hbase : b.base.toNat / 2 ^ b.bits * 2 ^ b.bits = b.base.toNat := Nat.div_mul_cancel h
  rw [Nat.div_eq_iff hpos, hbase]
  unfold Tile.Has
  by_cases hle : b.base ≤ p
  · rw [toNat_sub_of_le hle]
    rw [le_def] at hle
    omega
  have hlt : p < b.base := by
    rw [lt_def]
    rw [le_def] at hle
    omega
  rw [BitVec.toNat_sub_of_lt hlt]
  rw [lt_def] at hlt
  omega

/-- Words in one granule are in one granule of every larger size. -/
theorem div_two_pow_congr (hij : i ≤ j) (h : x / 2 ^ i = y / 2 ^ i) : x / 2 ^ j = y / 2 ^ j := by
  obtain ⟨d, rfl⟩ := Nat.exists_eq_add_of_le hij
  rw [Nat.pow_add, ← Nat.div_div_eq_div_mul, ← Nat.div_div_eq_div_mul, h]

/-! ## Cutting a range into tiles -/

/-- The tiles that come off while the range is cut from its start. One that is smaller than
`2 ^ g` comes off only where no whole granule begins. -/
inductive Cut (g : Nat) : Arc w → List (Tile w) → Prop
  | done {r : Arc w} : r.start = r.stop → Cut g r []
  | tile {r : Arc w} {k : Nat} {l : List (Tile w)} : 2 ^ k ≤ r.length → 2 ^ k ∣ r.start.toNat →
      (k < g → 2 ^ g ∣ r.start.toNat → r.length < 2 ^ g) → Cut g (r.drop k) l →
      Cut g r (⟨r.start, k⟩ :: l)

theorem Arc.not_has_empty (h : r.start = r.stop) (p : BitVec w) : ¬ r.Has p := by
  unfold Arc.Has Arc.length
  rw [h, sub_self, BitVec.toNat_zero]
  omega

theorem Cut.has_iff (h : Cut g r l) (p : BitVec w) : r.Has p ↔ ∃ b ∈ l, b.Has p := by
  induction h with
  | done hempty => simp [Arc.not_has_empty hempty]
  | tile hlen _ _ _ ih => simp [Arc.has_iff hlen, ih]

theorem Cut.apart (h : Cut g r l) : l.Pairwise Tile.Apart := by
  induction h with
  | done _ => exact .nil
  | tile hlen _ _ hrest ih =>
    refine List.pairwise_cons.mpr ⟨fun c hc p hp hcp => ?_, ih⟩
    exact Arc.not_has_drop hlen hp ((hrest.has_iff p).mpr ⟨c, hc, hcp⟩)

theorem Cut.aligned (h : Cut g r l) : ∀ b ∈ l, b.Aligned := by
  induction h with
  | done _ => intro b hb; cases hb
  | tile _ hdvd _ _ ih =>
    intro b hb
    rcases List.mem_cons.mp hb with rfl | hb
    · exact hdvd
    · exact ih b hb

/-- The granule of a word lies wholly in the range. -/
def Arc.HasGranule (r : Arc w) (g : Nat) (p : BitVec w) : Prop :=
  ∀ x : BitVec w, x.toNat / 2 ^ g = p.toNat / 2 ^ g → r.Has x

theorem toNat_one (hw : 0 < w) : (1#w).toNat = 1 := by
  rw [toNat_ofNat, Nat.mod_eq_of_lt (Nat.one_lt_two_pow (by omega))]

theorem Arc.not_has_pred (r : Arc w) (hx : x + 1#w = r.start) (hw : 0 < w) : ¬ r.Has x := by
  have hone : (1#w).toNat = 1 := toNat_one hw
  have hsub : x - r.start = -1#w := by
    rw [← hx, ← sub_sub, sub_self, BitVec.zero_sub]
  have hlen : r.length < 2 ^ w := (r.stop - r.start).isLt
  unfold Arc.Has
  rw [hsub, BitVec.toNat_neg, hone, Nat.mod_eq_of_lt (by omega)]
  omega

/-- Where a block is passed over, the granule of the start is not wholly in the range. -/
theorem Arc.not_hasGranule_start (hg : g ≤ w) (hw : 0 < w)
    (hskip : 2 ^ g ∣ r.start.toNat → r.length < 2 ^ g) : ¬ r.HasGranule g r.start := by
  intro hall
  have hpos : 0 < 2 ^ g := Nat.two_pow_pos _
  by_cases hdvd : 2 ^ g ∣ r.start.toNat
  · -- the last word of the granule is past the end
    have haligned : Tile.Aligned ⟨r.start, g⟩ := hdvd
    have hend : r.start.toNat + 2 ^ g ≤ 2 ^ w := haligned.add_le hg
    have hlast : (r.start + ofNat w (2 ^ g - 1) - r.start).toNat = 2 ^ g - 1 := by
      rw [BitVec.add_comm, BitVec.add_sub_cancel, toNat_ofNat, Nat.mod_eq_of_lt (by omega)]
    have hhas : r.Has (r.start + ofNat w (2 ^ g - 1)) :=
      hall _ ((haligned.has_iff hg _).mp (lt_of_eq_of_lt hlast (Nat.sub_one_lt (Nat.ne_of_gt hpos))))
    have hlt : (r.start + ofNat w (2 ^ g - 1) - r.start).toNat < r.length := hhas
    have hlen := hskip hdvd
    omega
  · -- the word before the start is in the granule
    have hmod : r.start.toNat % 2 ^ g ≠ 0 := fun h => hdvd (Nat.dvd_of_mod_eq_zero h)
    have hone : (1#w).toNat = 1 := toNat_one hw
    have hle : 1#w ≤ r.start := by
      rw [le_def, hone]
      exact Nat.pos_of_ne_zero fun h => hmod (by rw [h, Nat.zero_mod])
    refine Arc.not_has_pred r (BitVec.sub_add_cancel r.start 1#w) hw (hall _ ?_)
    have hdiv := Nat.div_add_mod r.start.toNat (2 ^ g)
    have hmodlt := Nat.mod_lt r.start.toNat hpos
    rw [toNat_sub_of_le hle, hone, Nat.div_eq_iff hpos, Nat.mul_comm]
    omega

/-- A granule that lies wholly in the range is in a tile that is not smaller. -/
theorem Cut.covers (h : Cut g r l) (hg : g ≤ w) :
    ∀ p, r.HasGranule g p → ∃ b ∈ l, g ≤ b.bits ∧ b.Has p := by
  induction h with
  | done hempty => exact fun p hp => absurd (hp p rfl) (Arc.not_has_empty hempty p)
  | @tile r k l hlen hdvd hskip _ ih =>
    intro p hp
    have hk := Arc.lt_of_two_pow_le_length hlen
    have haligned : Tile.Aligned ⟨r.start, k⟩ := hdvd
    have hiff := haligned.has_iff (Nat.le_of_lt hk)
    -- unless the granule lies in this tile, none of its words does
    suffices hcase : (g ≤ k ∧ Tile.Has ⟨r.start, k⟩ p) ∨
        ∀ x : BitVec w, x.toNat / 2 ^ g = p.toNat / 2 ^ g → ¬ Tile.Has ⟨r.start, k⟩ x by
      rcases hcase with hin | hout
      · exact ⟨_, List.mem_cons_self, hin⟩
      have hrest : (r.drop k).HasGranule g p := fun x hx =>
        ((Arc.has_iff hlen x).mp (hp x hx)).resolve_left (hout x hx)
      obtain ⟨b, hb, hbp⟩ := ih p hrest
      exact ⟨b, List.mem_cons_of_mem _ hb, hbp⟩
    by_cases hgk : g ≤ k
    · by_cases hin : Tile.Has ⟨r.start, k⟩ p
      · exact .inl ⟨hgk, hin⟩
      · refine .inr fun x hx hxin => hin ?_
        rw [hiff] at hxin ⊢
        exact (div_two_pow_congr hgk hx).symm.trans hxin
    · refine .inr fun x hx hxin => ?_
      rw [hiff] at hxin
      have hstart : p.toNat / 2 ^ g = r.start.toNat / 2 ^ g :=
        hx.symm.trans (div_two_pow_congr (show k ≤ g by omega) hxin)
      exact Arc.not_hasGranule_start hg (by omega) (hskip (by omega))
        fun y hy => hp y (hy.trans hstart.symm)

/-! ## Blocks one after the other -/

/-- Blocks of the given sizes, one after the other from `d` words after the start on. -/
def layout (s : BitVec w) : Nat → List Nat → List (Tile w)
  | _, [] => []
  | d, k :: ks => ⟨s + ofNat w d, k⟩ :: layout s (d + 2 ^ k) ks

/-- The room that blocks of these sizes take. -/
def room (ks : List Nat) : Nat := (ks.map (2 ^ ·)).sum

@[simp] theorem room_nil : room [] = 0 := rfl

@[simp] theorem room_cons (k : Nat) (ks : List Nat) : room (k :: ks) = 2 ^ k + room ks := rfl

@[simp] theorem room_append (ks ls : List Nat) : room (ks ++ ls) = room ks + room ls := by
  rw [room, List.map_append, List.sum_append]
  rfl

@[simp] theorem room_replicate (n k : Nat) : room (List.replicate n k) = n * 2 ^ k := by
  induction n with
  | zero => rw [List.replicate_zero, room_nil, Nat.zero_mul]
  | succ n ih =>
    rw [List.replicate_succ, room_cons, ih, Nat.succ_mul]
    omega

theorem layout_append (s : BitVec w) (d : Nat) (ks ls : List Nat) :
    layout s d (ks ++ ls) = layout s d ks ++ layout s (d + room ks) ls := by
  induction ks generalizing d with
  | nil => rfl
  | cons k ks ih =>
    rw [List.cons_append, layout, ih, layout, room_cons, List.cons_append, Nat.add_assoc]

theorem layout_add (s : BitVec w) (d x : Nat) (ks : List Nat) :
    layout (s + ofNat w d) x ks = layout s (d + x) ks := by
  induction ks generalizing x with
  | nil => rfl
  | cons k ks ih =>
    rw [layout, layout, ih, add_assoc, ← ofNat_add, Nat.add_assoc]

/-- In the order of their sizes, blocks need no gaps to be aligned. -/
theorem cut_layout (hdesc : ks.Pairwise (· ≥ ·)) (hdvd : ∀ k ∈ ks, 2 ^ k ∣ s.toNat + d)
    (hfit : s.toNat + (d + room ks) < 2 ^ w) :
    Cut 0 ⟨s + ofNat w d, s + ofNat w (d + room ks)⟩ (layout s d ks) := by
  induction ks generalizing d with
  | nil => exact .done rfl
  | cons k ks ih =>
    obtain ⟨hhead, htail⟩ := List.pairwise_cons.mp hdesc
    have hpos : 0 < 2 ^ k := Nat.two_pow_pos k
    rw [room_cons] at hfit ⊢
    have hadd : ∀ x, s.toNat + x < 2 ^ w → (s + ofNat w x).toNat = s.toNat + x := by
      intro x hx
      rw [BitVec.toNat_add, toNat_ofNat, Nat.mod_eq_of_lt (show x < 2 ^ w by omega),
        Nat.mod_eq_of_lt hx]
    have hrest := ih htail (fun l hl => by
      rw [← Nat.add_assoc]
      exact Nat.dvd_add (hdvd l (List.mem_cons_of_mem _ hl)) (Nat.pow_dvd_pow 2 (hhead l hl)))
      (by omega)
    rw [Nat.add_assoc] at hrest
    have hd := hadd d (by omega)
    refine .tile ?_ ?_ nofun ?_
    · have hle : s + ofNat w d ≤ s + ofNat w (d + (2 ^ k + room ks)) := by
        rw [le_def, hd, hadd _ hfit]
        omega
      show _ ≤ (s + ofNat w (d + (2 ^ k + room ks)) - (s + ofNat w d)).toNat
      rw [toNat_sub_of_le hle, hd, hadd _ hfit]
      omega
    · rw [hd]
      exact hdvd k List.mem_cons_self
    · have hstart : s + ofNat w d + ofNat w (2 ^ k) =
          s + ofNat w (d + 2 ^ k) := by
        rw [add_assoc, ofNat_add]
      show Cut 0 ⟨s + ofNat w d + ofNat w (2 ^ k), _⟩ _
      rw [hstart]
      exact hrest

end Rel4.Lib.Tiling

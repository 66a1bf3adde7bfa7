import Mathlib.Data.List.Basic

set_option relaxedAutoImplicit false
set_option autoImplicit false

/-!
# Hashing a message block by block

A compression function takes a chaining value and a block of `n` elements to the next chaining
value. A message is absorbed block by block; what does not fill a block is kept for later, so that
the message can also come in pieces.

## Main definitions

* `BlockHash.feed` — a number of blocks of a message.
* `BlockHash.absorb` — all the blocks that a message fills.
* `BlockHash.Stream` — a chaining value, with what does not fill a block.
* `BlockHash.Stream.push` — another piece of the message.

## Main results

* `BlockHash.absorb_append` — a message can be absorbed in two parts.
* `BlockHash.Stream.push_push` — the pieces in which a message comes do not matter.
-/

namespace BlockHash

universe u v

variable {σ : Type u} {β : Type v} (compress : σ → List β → σ) (n : ℕ)

/-- Absorb `k` blocks: the chaining value, and what is left of the message. -/
def feed : ℕ → σ → List β → σ × List β
  | 0, s, m => (s, m)
  | k + 1, s, m => feed k (compress s (m.take n)) (m.drop n)

/-- Absorb all the blocks that the message fills. -/
def absorb (s : σ) (m : List β) : σ × List β := feed compress n (m.length / n) s m

variable {compress n}

/-- Blocks that are there are not changed by what follows.

**Proof sketch.** Induction on the number of blocks; the first one is all in the first part. -/
theorem feed_append {k : ℕ} {s : σ} {m : List β} (hk : k * n ≤ m.length) (m' : List β) :
    feed compress n k s (m ++ m') =
      ((feed compress n k s m).1, (feed compress n k s m).2 ++ m') := by
  induction k generalizing s m with
  | zero => rfl
  | succ k ih =>
    rw [Nat.succ_mul] at hk
    have hn : n ≤ m.length := by omega
    have hrest : k * n ≤ (m.drop n).length := by
      rw [List.length_drop]
      omega
    unfold feed
    rw [List.take_append_of_le_length hn, List.drop_append_of_le_length hn, ih hrest]

/-- Blocks in two rounds. -/
theorem feed_add (j k : ℕ) (s : σ) (m : List β) :
    feed compress n (j + k) s m =
      feed compress n k (feed compress n j s m).1 (feed compress n j s m).2 := by
  induction j generalizing s m with
  | zero => rw [Nat.zero_add]; rfl
  | succ j ih =>
    rw [Nat.succ_add]
    exact ih _ _

/-- Each block takes `n` elements of the message. -/
theorem length_feed (k : ℕ) (s : σ) (m : List β) :
    (feed compress n k s m).2.length = m.length - k * n := by
  induction k generalizing s m with
  | zero => simp [feed]
  | succ k ih =>
    unfold feed
    rw [ih, List.length_drop, Nat.succ_mul]
    omega

/-- What is left is shorter than a block. -/
theorem length_absorb (s : σ) (m : List β) :
    (absorb compress n s m).2.length = m.length % n := by
  have hdiv := Nat.div_add_mod m.length n
  rw [absorb, length_feed, Nat.mul_comm]
  omega

/-- A message that does not fill a block is left. -/
theorem absorb_of_lt {s : σ} {m : List β} (h : m.length < n) :
    absorb compress n s m = (s, m) := by
  rw [absorb, Nat.div_eq_of_lt h]
  rfl

/-- The first block, when there is one. -/
theorem absorb_of_le {s : σ} {m : List β} (hn : 0 < n) (h : n ≤ m.length) :
    absorb compress n s m = absorb compress n (compress s (m.take n)) (m.drop n) := by
  have hdiv : m.length / n = (m.drop n).length / n + 1 := by
    rw [List.length_drop, Nat.div_eq_sub_div hn h]
  rw [absorb, hdiv]
  rfl

/-- A message whose first part does not fill a block, and whose second part fills it. -/
theorem absorb_fill {s : σ} {m m' : List β} {k : ℕ} (hk : m.length + k = n) (hn : 0 < n)
    (h : k ≤ m'.length) :
    absorb compress n s (m ++ m') =
      absorb compress n (compress s (m ++ m'.take k)) (m'.drop k) := by
  rw [absorb_of_le hn (by rw [List.length_append]; omega), ← hk, List.take_length_add_append,
    List.drop_length_add_append]

/-- **A message in two parts.** What is left of the first part is put in front of the second.

**Proof sketch.** The blocks of the whole message are the blocks of the first part, and then those
of what is left of it and the second part. -/
theorem absorb_append (hn : 0 < n) (s : σ) (m m' : List β) :
    absorb compress n s (m ++ m') =
      absorb compress n (absorb compress n s m).1 ((absorb compress n s m).2 ++ m') := by
  have hle : m.length / n * n ≤ m.length := Nat.div_mul_le_self ..
  have hmod : (absorb compress n s m).2.length = m.length % n := length_absorb s m
  have hcount : (m ++ m').length / n =
      m.length / n + ((absorb compress n s m).2 ++ m').length / n := by
    have hdiv := Nat.div_add_mod m.length n
    calc (m ++ m').length / n
        = (m.length % n + m'.length + n * (m.length / n)) / n := by
          rw [List.length_append]
          congr 1
          omega
      _ = (m.length % n + m'.length) / n + m.length / n := Nat.add_mul_div_left _ _ hn
      _ = _ := by rw [List.length_append, hmod, Nat.add_comm]
  conv_lhs => rw [absorb, hcount, feed_add, feed_append hle]
  rfl

/-! ## A message that comes in pieces -/

/-- The chaining value of the blocks so far, and what does not fill a block. -/
@[ext]
structure Stream (σ : Type u) (β : Type v) (n : ℕ) where
  value : σ
  pending : List β
  lt : pending.length < n

namespace Stream

/-- Nothing has come yet. -/
def start (hn : 0 < n) (s : σ) : Stream σ β n := ⟨s, [], hn⟩

/-- Another piece of the message. -/
def push (compress : σ → List β → σ) (x : Stream σ β n) (m : List β) : Stream σ β n where
  value := (absorb compress n x.value (x.pending ++ m)).1
  pending := (absorb compress n x.value (x.pending ++ m)).2
  lt := by
    rw [length_absorb]
    exact Nat.mod_lt _ (Nat.zero_lt_of_lt x.lt)

/-- **Pieces do not matter.** Two pieces one after the other are one piece. -/
theorem push_push (x : Stream σ β n) (m m' : List β) :
    (x.push compress m).push compress m' = x.push compress (m ++ m') := by
  have happend : absorb compress n x.value (x.pending ++ m ++ m') = _ :=
    absorb_append (Nat.zero_lt_of_lt x.lt) x.value (x.pending ++ m) m'
  rw [List.append_assoc] at happend
  ext1
  · exact congrArg Prod.fst happend.symm
  · exact congrArg Prod.snd happend.symm

/-- What waits for a block is what the length leaves over. -/
theorem length_pending_start (hn : 0 < n) (s : σ) (m : List β) :
    ((start hn s).push compress m).pending.length = m.length % n :=
  length_absorb s m

end Stream

end BlockHash

/-
How often a request is sent again, and how long is waited before. A receiver that was too busy
or was not reached has not acted on the request, so that it may be sent again; after any other
reply it may have, and that reply is the last. The retries allowed are the other end of it.

The waits double from one retry to the next, up to sixteen times. They are worked out in
machine words, and a shift that loses no bit and a product that stops at the largest word give
what arithmetic without bounds gives.
-/
import Mathlib.Data.ENat.Lattice
import EventScript.Machine.Action
import EventScript.Proofs.Http.Delivery
import EventScript.Proofs.Text.Numeral

namespace EventScript

namespace Http

-- ============================================================ the replies

/-- The receiver has not acted on the request: it was too busy to, or was not reached. -/
inductive Reply.Unserved : Reply → Prop
  | tooManyRequests : Unserved (.status 429)
  | unavailable : Unserved (.status 503)
  | refused : Unserved .refused

/-- A request may be tried again where the reply did not serve it. -/
theorem Reply.mayRetry_iff {reply : Reply} : reply.mayRetry = true ↔ reply.Unserved := by
  constructor
  · intro h
    cases reply with
    | status code =>
        simp only [mayRetry, Bool.or_eq_true, beq_iff_eq] at h
        rcases h with rfl | rfl
        · exact .tooManyRequests
        · exact .unavailable
    | refused => exact .refused
    | dropped => cases h
    | timedOut => cases h
  · intro h
    cases h <;> rfl

/-- The number of the first reply under which the receiver may have acted, infinite when there
is none. -/
noncomputable def firstServed (replies : Nat → Reply) : ℕ∞ :=
  ⨅ (i : Nat) (_ : ¬ (replies i).Unserved), (i : ℕ∞)

variable {replies : Nat → Reply} {n : Nat}

/-- What is served first comes behind all that are not served. -/
theorem le_firstServed (h : ∀ i < n, (replies i).Unserved) : (n : ℕ∞) ≤ firstServed replies := by
  refine le_iInf₂ ?_
  intro i hi
  exact Nat.cast_le.mpr (Nat.le_of_not_lt fun hlt => hi (h i hlt))

theorem firstServed_le (h : ¬ (replies n).Unserved) : firstServed replies ≤ n :=
  iInf₂_le n h

-- ============================================================== the waits

namespace RetryPolicy

variable (p : RetryPolicy)

/-- The wait is the backoff doubled up to sixteen times, and never more than a word. -/
theorem wait_eq (retry : Nat) :
    p.wait retry = min (p.backoff * 2 ^ min (retry - 1) 16) (2 ^ 64 - 1) := by
  unfold wait
  rw [Nat.shiftLeft_eq]
  rfl

/-- A later wait is no shorter. -/
theorem wait_mono {i j : Nat} (h : i ≤ j) : p.wait i ≤ p.wait j := by
  have hdoublings : min (i - 1) 16 ≤ min (j - 1) 16 := by omega
  have hproduct : p.backoff * 2 ^ min (i - 1) 16 ≤ p.backoff * 2 ^ min (j - 1) 16 :=
    Nat.mul_le_mul_left _ (Nat.pow_le_pow_right Nat.two_pos hdoublings)
  rw [wait_eq, wait_eq]
  omega

/-- How often the wait has doubled before a retry, in a word: neither does the number of the
retry fall below zero nor the count pass sixteen. -/
def wordDoublings (retry : UInt32) : UInt32 :=
  let before := if retry = 0 then 0 else retry - 1
  if before < 16 then before else 16

/-- The wait before a retry in machine words, where a product that does not fit one is the
largest word. -/
def wordWait (backoff : UInt64) (retry : UInt32) : UInt64 :=
  let factor := (1 : UInt64) <<< (wordDoublings retry).toUInt64
  if 0xFFFFFFFFFFFFFFFF / factor < backoff then 0xFFFFFFFFFFFFFFFF else backoff * factor

/-- In words the doublings are counted as in numbers, up to sixteen. -/
theorem toNat_wordDoublings (retry : UInt32) :
    (wordDoublings retry).toNat = min (retry.toNat - 1) 16 := by
  have hbefore : (if retry = 0 then 0 else retry - 1).toNat = retry.toNat - 1 := by
    split
    case isTrue hzero =>
      rw [hzero]
      rfl
    case isFalse hne =>
      have hpos : retry.toNat ≠ 0 := fun h => hne (UInt32.toNat_inj.mp h)
      exact UInt32.toNat_sub_of_le _ _ (UInt32.le_iff_toNat_le.mpr (Nat.pos_of_ne_zero hpos))
  unfold wordDoublings
  dsimp only
  generalize (if retry = 0 then 0 else retry - 1) = before at hbefore ⊢
  rw [← hbefore]
  have hsixteen : (before < 16) ↔ before.toNat < 16 := UInt32.lt_iff_toNat_lt
  split
  case isTrue h => exact (Nat.min_eq_left (Nat.le_of_lt (hsixteen.mp h))).symm
  case isFalse h => exact (Nat.min_eq_right (Nat.le_of_not_lt (h ∘ hsixteen.mpr))).symm

/-- The shift loses no bit. -/
theorem toNat_factor (retry : UInt32) :
    ((1 : UInt64) <<< (wordDoublings retry).toUInt64).toNat = 2 ^ min (retry.toNat - 1) 16 := by
  have hsmall : min (retry.toNat - 1) 16 ≤ 16 := Nat.min_le_right _ _
  have hpow : 2 ^ min (retry.toNat - 1) 16 ≤ 2 ^ 16 := Nat.pow_le_pow_right Nat.two_pos hsmall
  have hone : (1 : UInt64).toNat = 1 := rfl
  have hshift : min (retry.toNat - 1) 16 % 64 = min (retry.toNat - 1) 16 :=
    Nat.mod_eq_of_lt (by omega)
  rw [UInt64.toNat_shiftLeft, UInt32.toNat_toUInt64, toNat_wordDoublings, hone, hshift,
    Nat.shiftLeft_eq, Nat.one_mul, Nat.mod_eq_of_lt (by omega)]

/-- The words hold what the wait is. -/
theorem toNat_wordWait (retries : Nat) (backoff : UInt64) (retry : UInt32) :
    (wordWait backoff retry).toNat = wait ⟨retries, backoff.toNat⟩ retry.toNat := by
  have hpos : 0 < 2 ^ min (retry.toNat - 1) 16 := Nat.two_pow_pos _
  have hlargest : (0xFFFFFFFFFFFFFFFF : UInt64).toNat = 2 ^ 64 - 1 := rfl
  have hpasses : 0xFFFFFFFFFFFFFFFF / (1 : UInt64) <<< (wordDoublings retry).toUInt64 < backoff
      ↔ 2 ^ 64 - 1 < backoff.toNat * 2 ^ min (retry.toNat - 1) 16 := by
    rw [UInt64.lt_iff_toNat_lt, UInt64.toNat_div, toNat_factor, hlargest,
      Nat.div_lt_iff_lt_mul hpos]
  rw [wait_eq]
  unfold wordWait
  dsimp only
  split
  case isTrue h => exact (Nat.min_eq_right (Nat.le_of_lt (hpasses.mp h))).symm
  case isFalse h =>
    have hfits := Nat.le_of_not_lt (h ∘ hpasses.mpr)
    rw [UInt64.toNat_mul, toNat_factor, Nat.mod_eq_of_lt (by omega), Nat.min_eq_left hfits]

example : wordWait 0x8000000000000000 2 = 0xFFFFFFFFFFFFFFFF := by decide

end RetryPolicy

-- =========================================================== the delivery

namespace Delivery

/-- A delivery stops at the first reply under which the receiver may have acted, or when no
attempt is left. -/
theorem run_eq_stoppedAt_min (replies : Nat → Reply) (left attempt : Nat) :
    ∃ n : Nat, (n : ℕ∞) = min (firstServed fun i => replies (attempt + i)) left
      ∧ run replies left attempt = stoppedAt replies attempt n
      ∧ ∀ i < n, (replies (attempt + i)).Unserved := by
  obtain ⟨n, hn, hrun, hgoes, hstops⟩ := run_eq_stoppedAt replies left attempt
  have hunserved : ∀ i < n, (replies (attempt + i)).Unserved := fun i hi =>
    Reply.mayRetry_iff.mp (hgoes i hi)
  have hfirst : (n : ℕ∞) ≤ firstServed fun i => replies (attempt + i) :=
    le_firstServed hunserved
  refine ⟨n, ?_, hrun, hunserved⟩
  rcases Nat.lt_or_eq_of_le hn with hlt | rfl
  · have hserved : ¬ (replies (attempt + n)).Unserved := by
      rw [← Reply.mayRetry_iff, hstops hlt]
      exact Bool.false_ne_true
    have hlast : (firstServed fun i => replies (attempt + i)) ≤ n := firstServed_le hserved
    rw [le_antisymm hlast hfirst]
    exact (min_eq_left (Nat.cast_le.mpr hn)).symm
  · exact (min_eq_right hfirst).symm

/-- Before each attempt but the first there was its wait. -/
theorem waits_stoppedAt (replies : Nat → Reply) (attempt n : Nat) (p : RetryPolicy) :
    (stoppedAt replies attempt n).waits p = (List.range' 1 n).map p.wait := by
  unfold waits stoppedAt
  rw [List.length_map, List.length_range', List.range'_eq_map_range, List.map_map]
  refine List.map_congr_left ?_
  intro i _
  show p.wait (i + 1) = p.wait (1 + i)
  rw [Nat.add_comm]

end Delivery

end Http

-- =========================================================== the settings

namespace Settings

/-- A setting has every property that its default and all values that can be read have. -/
theorem valueOf_eq_ok {α : Type} {P : α → Prop} {env : Environment} {key : String}
    {read : String → Option α} {default a : α} (hread : ∀ s a, read s = some a → P a)
    (hdefault : P default) (h : valueOf env key read default = .ok a) : P a := by
  unfold valueOf at h
  split at h
  · cases h
    exact hdefault
  · split at h
    · next hsome =>
      cases h
      exact hread _ _ hsome
    · cases h

/-- Settings made of an environment keep to their words. -/
theorem ofEnvironment_words {env : Environment} {s : Settings} (h : ofEnvironment env = .ok s) :
    ∃ (retries : UInt32) (backoff : UInt64),
      s.retryPolicy = ⟨retries.toNat, backoff.toNat⟩ := by
  unfold ofEnvironment at h
  obtain ⟨_, -, h⟩ := Except.bind_eq_ok.mp h
  obtain ⟨_, -, h⟩ := Except.bind_eq_ok.mp h
  obtain ⟨retries, hretries, h⟩ := Except.bind_eq_ok.mp h
  obtain ⟨backoff, hbackoff, h⟩ := Except.bind_eq_ok.mp h
  obtain ⟨_, -, h⟩ := Except.bind_eq_ok.mp h
  cases h
  have hretries : retries < 0x100000000 :=
    valueOf_eq_ok (P := (· < 0x100000000)) (fun _ _ => Text.lt_of_unsignedBelow?) (by decide)
      hretries
  have hbackoff : backoff < 0x10000000000000000 :=
    valueOf_eq_ok (P := (· < 0x10000000000000000)) (fun _ _ => Text.lt_of_unsignedBelow?)
      (by decide) hbackoff
  refine ⟨.ofNat retries, .ofNat backoff, ?_⟩
  rw [UInt32.toNat_ofNat_of_lt' hretries, UInt64.toNat_ofNat_of_lt' hbackoff]
  rfl

end Settings

-- ============================================================ the machine

namespace Machine

open Http (Reply Request Network RetryPolicy Delivery firstServed)

/-- What comes of a request that is sent again `n` times, the first wait being `backoff`
milliseconds. -/
structure Retried (m : Machine) (backoff : UInt64) (r : Request) (n : Nat) : Prop where
  sent : (m.deliver r).2.world.network.sent = m.world.network.sent ++ List.replicate (n + 1) r
  /-- The answer is the reply to the last attempt. -/
  answer : (m.deliver r).1 = m.world.network.replies (m.world.network.sent.length + n)
  /-- Before each retry, and at no other time, the machine waits. -/
  waited : (m.deliver r).2.world.now
    = ((List.range' 1 n).map m.settings.retryPolicy.wait).foldl Timestamp.addMillis m.world.now
  wait : ∀ j, m.settings.retryPolicy.wait j
    = min (backoff.toNat * 2 ^ min (j - 1) 16) (2 ^ 64 - 1)
  ascending : ∀ i j, i ≤ j → m.settings.retryPolicy.wait i ≤ m.settings.retryPolicy.wait j
  /-- Neither the number of a retry nor the wait before it passes its word. -/
  inWords : ∀ j, 1 ≤ j → j ≤ n → ∃ retry : UInt32, retry.toNat = j
    ∧ (RetryPolicy.wordWait backoff retry).toNat = m.settings.retryPolicy.wait j
  /-- Only after the last attempt may the receiver have acted. -/
  served : ∀ i ≤ n, ¬ (m.world.network.replies (m.world.network.sent.length + i)).Unserved → i = n

/-- A request is sent again until the receiver may have acted on it, or until no retry is
left. -/
theorem retried_until_served (m : Machine) (retries : UInt32) (backoff : UInt64)
    (hpolicy : m.settings.retryPolicy = ⟨retries.toNat, backoff.toNat⟩) (r : Request) :
    ∃ n : Nat, m.Retried backoff r n
      ∧ (n : ℕ∞) = min (firstServed fun i =>
          m.world.network.replies (m.world.network.sent.length + i)) retries.toNat := by
  obtain ⟨n, hn, hrun, hunserved⟩ := Delivery.run_eq_stoppedAt_min m.world.network.replies
    m.settings.retryPolicy.retries m.world.network.sent.length
  have hallowed : n ≤ retries.toNat := by
    have hle := hn.le.trans (min_le_right _ _)
    rw [hpolicy] at hle
    exact Nat.cast_le.mp hle
  refine ⟨n, ⟨?_, ?_, ?_, ?_, ?_, ?_, ?_⟩, ?_⟩
  · show _ ++ List.replicate (Delivery.run _ _ _).attempts r = _
    rw [hrun, Delivery.attempts_stoppedAt]
  · show (Delivery.run _ _ _).last = _
    rw [hrun]
    rfl
  · show ((Delivery.run _ _ _).waits _).foldl _ _ = _
    rw [hrun, Delivery.waits_stoppedAt]
  · intro j
    rw [RetryPolicy.wait_eq, hpolicy]
  · intro i j hij
    exact RetryPolicy.wait_mono _ hij
  · intro j _ hj
    have hword : (UInt32.ofNat j).toNat = j := by
      rw [UInt32.toNat_ofNat']
      exact Nat.mod_eq_of_lt (Nat.lt_of_le_of_lt (hj.trans hallowed) retries.toNat_lt)
    refine ⟨UInt32.ofNat j, hword, ?_⟩
    rw [RetryPolicy.toNat_wordWait retries.toNat, hword, hpolicy]
  · intro i hi hserved
    by_contra hne
    exact hserved (hunserved i (Nat.lt_of_le_of_ne hi hne))
  · rw [hn, hpolicy]

/-- A machine whose receiver is too busy first, then not reached, and then answers. -/
def busyThenAway : Machine :=
  new {} { network := { replies := fun i =>
    if i = 0 then .status 503 else if i = 1 then .refused else .status 200 } }

theorem busyThenAway_retried :
    let r : Request := ⟨.post, { scheme := "http", path := .segments [""] }, [], .null⟩
    busyThenAway.settings.retryPolicy = ⟨(2 : UInt32).toNat, (200 : UInt64).toNat⟩
      ∧ (∃ n : Nat, busyThenAway.Retried 200 r n
        ∧ (n : ℕ∞) = min (firstServed fun i => busyThenAway.world.network.replies
            (busyThenAway.world.network.sent.length + i)) (2 : UInt32).toNat)
      ∧ (busyThenAway.deliver r).1 = .status 200
      ∧ (busyThenAway.deliver r).2.world.now = ⟨0, 600000000⟩ := by
  intro r
  exact ⟨rfl, retried_until_served busyThenAway 2 200 rfl r, rfl, rfl⟩

end Machine
end EventScript

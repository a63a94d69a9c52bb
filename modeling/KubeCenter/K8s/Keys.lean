import KubeCenter.Lib.LengthPrefixed
import KubeCenter.Resources.Access
import Mathlib.Data.Nat.Digits.Lemmas

/-! # The keys of the per-cluster caches

`cacheKey` of `client.go`, `NormalizedClusterID` of `cluster_router.go`, and the texts that join
them with a zero byte. Neither a hash nor a generation holds the separator, so a joined key can be
read back from its end. -/
namespace KubeCenter.K8s
open Lib Resources List

/-! ## Names -/

def normalizedClusterID (clusterID : Bytes) : Bytes :=
  if isLocalClusterID clusterID then ascii "local" else clusterID

def hexDigit (n : ℕ) : UInt8 := if n < 10 then (48 + n).toUInt8 else (87 + n).toUInt8

/-- `fmt.Sprintf("%x", h)`. -/
def hex (h : Bytes) : Bytes := h.flatMap fun b => [hexDigit (b.toNat / 16), hexDigit (b.toNat % 16)]

/-- `strconv.FormatUint(n, 10)`. -/
def formatUint (n : ℕ) : Bytes :=
  if n = 0 then [48] else (Nat.digits 10 n).reverse.map fun d => (48 + d).toUInt8

/-- `cacheKey`, which is `IdentityKey`; the hash is a parameter. -/
def cacheKey (sha256 : Bytes → Bytes) (i : Identity) : Bytes := hex (sha256 i.text)

/-- Whom an identity names: a user and groups in any order. -/
def SameIdentity (i j : Identity) : Prop := i.username = j.username ∧ i.groups.Perm j.groups

/-! ## Reading a key back -/

theorem hexDigit_ne_zero : ∀ n < 16, hexDigit n ≠ 0 := by decide

theorem zero_not_mem_hex (h : Bytes) : (0 : UInt8) ∉ hex h := by
  intro hmem
  obtain ⟨b, -, hb⟩ := mem_flatMap.mp hmem
  have hb256 : b.toNat < 256 := b.toNat_lt
  rcases mem_cons.mp hb with hb | hb
  · exact hexDigit_ne_zero _ (by omega) hb.symm
  · exact hexDigit_ne_zero _ (by omega) (mem_singleton.mp hb).symm

theorem digit_ne_zero : ∀ d < 10, (48 + d).toUInt8 ≠ 0 := by decide

theorem digit_inj : ∀ d < 10, ∀ d' < 10, (48 + d).toUInt8 = (48 + d').toUInt8 → d = d' := by
  decide

theorem zero_not_mem_formatUint (n : ℕ) : (0 : UInt8) ∉ formatUint n := by
  unfold formatUint
  split
  · decide
  · intro hmem
    obtain ⟨d, hd, hzr⟩ := mem_map.mp hmem
    exact digit_ne_zero d (Nat.digits_lt_base (by decide) (mem_reverse.mp hd)) hzr

theorem digits_of_map {l l' : List ℕ} (hl : ∀ d ∈ l, d < 10) (hl' : ∀ d ∈ l', d < 10)
    (h : l.map (fun d => (48 + d).toUInt8) = l'.map fun d => (48 + d).toUInt8) : l = l' :=
  eq_of_map_eq_map (fun d hd d' hd' => digit_inj d (hl d hd) d' (hl' d' hd')) h

theorem formatUint_ne_zero_text {n : ℕ} (hn : n ≠ 0) :
    (Nat.digits 10 n).reverse.map (fun d => (48 + d).toUInt8) ≠ [48] := by
  intro h
  have hdg : (Nat.digits 10 n).reverse = [0] := by
    refine digits_of_map (fun d hd => ?_) (by decide) h
    exact Nat.digits_lt_base (by decide) (mem_reverse.mp hd)
  have hone : Nat.digits 10 n = [0] := by simpa using congrArg List.reverse hdg
  have hvl := Nat.ofDigits_digits 10 n
  rw [hone] at hvl
  exact hn hvl.symm

theorem formatUint_inj {n n' : ℕ} (h : formatUint n = formatUint n') : n = n' := by
  unfold formatUint at h
  by_cases hn : n = 0 <;> by_cases hn' : n' = 0
  · rw [hn, hn']
  · rw [if_pos hn, if_neg hn'] at h
    exact absurd h.symm (formatUint_ne_zero_text hn')
  · rw [if_neg hn, if_pos hn'] at h
    exact absurd h (formatUint_ne_zero_text hn)
  · rw [if_neg hn, if_neg hn'] at h
    have hlt : ∀ m, ∀ d ∈ (Nat.digits 10 m).reverse, d < 10 := fun m d hd =>
      Nat.digits_lt_base (by decide) (mem_reverse.mp hd)
    exact Nat.digits_inj_iff.mp (reverse_injective (digits_of_map (hlt n) (hlt n') h))

theorem append_sep_inj_right {x x' y y' : Bytes} (hy : (0 : UInt8) ∉ y) (hy' : (0 : UInt8) ∉ y')
    (h : x ++ 0 :: y = x' ++ 0 :: y') : x = x' ∧ y = y' := by
  have hrev := congrArg List.reverse h
  simp only [reverse_append, reverse_cons, append_assoc, singleton_append] at hrev
  obtain ⟨hla, hfi⟩ := append_sep_inj (by simpa using hy) (by simpa using hy') hrev
  exact ⟨reverse_injective hfi, reverse_injective hla⟩

end KubeCenter.K8s

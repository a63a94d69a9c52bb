import KubeCenter.Lib.LengthPrefixed
import KubeCenter.Loki.Security
import Mathlib.Data.List.Induction
import Mathlib.Data.List.TakeWhile

/-! # Namespace isolation

The brace finder and the value parser track quotes and escapes each on its own; both are shown to
cross a written matcher exactly (`findClosingBraceFrom_write`, `parseMatcher_write`), and
everything the parser accepts can be written (`parseMatcher_inv`). -/
namespace KubeCenter.Loki

open Lib List Nat

/-! ## Matchers that can be written -/

/-- A quote stands only after a backslash, and every backslash has a byte after it. -/
inductive Quotable : Bytes → Prop where
  | nil : Quotable []
  | plain {b v} (hq : b ≠ byte '"') (hb : b ≠ byte '\\') (hv : Quotable v) : Quotable (b :: v)
  | escape {v} (c : UInt8) (hv : Quotable v) : Quotable (byte '\\' :: c :: v)

variable {ms : List Matcher} {m : Matcher} {allowed : List Bytes} {s v rest content : Bytes}
  {n fuel : Nat}

theorem quotable_of_forall (h : ∀ b ∈ v, b ≠ byte '"' ∧ b ≠ byte '\\') : Quotable v := by
  induction v with
  | nil => exact .nil
  | cons b v ih =>
    obtain ⟨⟨hq, hb⟩, hv⟩ := forall_mem_cons.1 h
    exact .plain hq hb (ih hv)

/-- A matcher whose text means that matcher again. -/
structure Matcher.Printable (m : Matcher) : Prop where
  label_ne_nil : m.label ≠ []
  label_chars : ∀ b ∈ m.label, isLabelChar b
  value : Quotable m.value

/-! ## Every parsed matcher can be written -/

theorem parseQuotedValueFrom_inv {sb : Bytes} {escaped : Bool} {value : Bytes}
    (h : parseQuotedValueFrom sb escaped s = some (value, rest)) :
    (∃ v, Quotable v ∧ value = sb ++ v) ∧ rest.length < s.length := by
  induction s generalizing sb escaped with
  | nil => simp at h
  | cons ch s ih =>
    unfold parseQuotedValueFrom at h
    split at h
    · obtain ⟨⟨v, hv, rfl⟩, hlen⟩ := ih h
      exact ⟨⟨_, .escape ch hv, by simp⟩, lt_succ_of_lt hlen⟩
    split at h
    · obtain ⟨hvalue, hlen⟩ := ih h
      exact ⟨hvalue, lt_succ_of_lt hlen⟩
    split at h
    · obtain ⟨rfl, rfl⟩ : sb = value ∧ s = rest := by simpa using h
      exact ⟨⟨[], .nil, by simp⟩, lt_succ_self _⟩
    next hb hq =>
      obtain ⟨⟨v, hv, rfl⟩, hlen⟩ := ih h
      exact ⟨⟨_, .plain hq hb hv, by simp⟩, lt_succ_of_lt hlen⟩

theorem length_parseOp {op : MatchOp} (h : parseOp s = some (op, rest)) :
    rest.length < s.length := by
  fun_cases parseOp s <;> simp_all [parseOp] <;> grind

/-- A round reads at least one byte and yields a matcher that can be written. -/
theorem parseMatcher_inv (h : parseMatcher n s = .ok (m, rest)) :
    m.Printable ∧ rest.length < s.length := by
  unfold parseMatcher at h
  simp only at h
  split at h
  · cases h
  rename_i hlb
  split at h
  · cases h
  rename_i c cs hop
  split at h
  · cases h
  rename_i op afterOp hparse
  split at h
  · cases h
  rename_i q quoted hvalue
  split at h
  · cases h
  split at h
  · cases h
  rename_i value rest' hqu
  obtain ⟨rfl, rfl⟩ : _ = m ∧ rest' = rest := by simpa using h
  obtain ⟨⟨v, hv, hval⟩, hrs⟩ := parseQuotedValueFrom_inv hqu
  refine ⟨⟨hlb, fun b hb => mem_takeWhile_imp hb, ?_⟩, ?_⟩
  · simpa [hval] using hv
  · have h₁ := length_dropWhile_le isLabelChar s
    have h₂ := length_dropWhile_le isBlank (s.dropWhile isLabelChar)
    have h₃ := length_parseOp hparse
    have h₄ := length_dropWhile_le isBlank afterOp
    rw [hop] at h₂
    rw [hvalue] at h₄
    simp only [length_cons] at h₂ h₃ h₄
    omega

theorem parseMatchersLoop_printable (h : parseMatchersLoop n fuel s = .ok ms) :
    ∀ m ∈ ms, m.Printable := by
  induction fuel generalizing s ms with
  | zero =>
    obtain rfl : [] = ms := by simpa [parseMatchersLoop] using h
    simp
  | succ fuel ih =>
    unfold parseMatchersLoop at h
    split at h
    · obtain rfl : [] = ms := by simpa using h
      simp
    split at h
    · cases h
    rename_i m rest hm
    cases hlp : parseMatchersLoop n fuel rest with
    | error e => rw [hlp] at h; cases h
    | ok tail =>
      rw [hlp] at h
      obtain rfl : m :: tail = ms := by injection h
      exact forall_mem_cons.2 ⟨(parseMatcher_inv hm).1, ih hlp⟩

/-- The loop never runs out of rounds: more of them change nothing. -/
theorem parseMatchersLoop_fuel {f g : Nat} (hf : s.length ≤ f) (hg : s.length ≤ g) :
    parseMatchersLoop n f s = parseMatchersLoop n g s := by
  induction f generalizing g s with
  | zero =>
    obtain rfl : s = [] := eq_nil_of_length_eq_zero (le_zero.1 hf)
    cases g <;> rfl
  | succ f ih =>
    cases g with
    | zero =>
      obtain rfl : s = [] := eq_nil_of_length_eq_zero (le_zero.1 hg)
      rfl
    | succ g =>
      have hsk := length_dropWhile_le isSeparator s
      simp only [parseMatchersLoop]
      split
      · rfl
      rename_i c cs hcs
      rw [hcs] at hsk
      split
      · rfl
      rename_i m rest hm
      have hrs := (parseMatcher_inv hm).2
      rw [ih (s := rest) (g := g) (by omega) (by omega)]

/-! ## Every written matcher is read back -/

theorem ne_of_isLabelChar : ∀ b : UInt8, isLabelChar b →
    b ≠ byte '"' ∧ b ≠ closeBrace ∧ isSeparator b = false ∧ ∀ u ∈ spaces, b ∉ u := by
  decide +kernel

theorem parseQuotedValueFrom_quotable (hv : Quotable v) (sb rest : Bytes) :
    parseQuotedValueFrom sb false (v ++ byte '"' :: rest) = some (sb ++ v, rest) := by
  induction hv generalizing sb with
  | nil => simp [show byte '"' ≠ byte '\\' by decide]
  | plain hq hb _ ih => simp [hq, hb, ih]
  | escape c _ ih => simp [ih]

theorem parseOp_write (op : MatchOp) (rest : Bytes) :
    parseOp (op.write ++ byte '"' :: rest) = some (op, byte '"' :: rest) := by
  cases op <;> rfl

theorem MatchOp.write_eq_cons (op : MatchOp) :
    ∃ c cs, op.write = c :: cs ∧ isLabelChar c = false ∧ isBlank c = false := by
  cases op <;> exact ⟨_, _, rfl, by decide, by decide⟩

theorem parseMatcher_write (hm : m.Printable) (n : Nat) (rest : Bytes) :
    parseMatcher n (m.write ++ rest) = .ok (m, rest) := by
  obtain ⟨c, cs, hop, hc, hbl⟩ := m.op.write_eq_cons
  have hparse := parseOp_write m.op (m.value ++ byte '"' :: rest)
  have hvalue := parseQuotedValueFrom_quotable hm.value [] rest
  have htext : m.write ++ rest =
      m.label ++ (c :: (cs ++ byte '"' :: (m.value ++ byte '"' :: rest))) := by
    simp [Matcher.write, hop]
  rw [hop, cons_append] at hparse
  have hquote : isBlank (byte '"') = false := by decide
  simp [htext, parseMatcher, takeWhile_append_of_pos hm.label_chars,
    dropWhile_append_of_pos hm.label_chars, hc, hbl, hparse, hquote, hm.label_ne_nil,
    parseQuotedValue, hvalue]

theorem Matcher.Printable.head (hm : m.Printable) : ∃ b t, m.write = b :: t ∧ isLabelChar b := by
  obtain ⟨b, t, hla⟩ := exists_cons_of_ne_nil hm.label_ne_nil
  refine ⟨b, t ++ m.op.write ++ byte '"' :: m.value ++ [byte '"'], ?_, ?_⟩
  · simp [Matcher.write, hla]
  · exact hm.label_chars b (by simp [hla])

theorem parseMatchersLoop_write (hm : m.Printable) (rest : Bytes) :
    parseMatchersLoop n (fuel + 1) (m.write ++ rest) =
      (m :: ·) <$> parseMatchersLoop n fuel rest := by
  obtain ⟨b, t, hwri, hb⟩ := hm.head
  have hrd := parseMatcher_write hm n rest
  rw [hwri, cons_append] at hrd ⊢
  simp [parseMatchersLoop, (ne_of_isLabelChar b hb).2.2.1, hrd]

theorem parseMatchersLoop_writeTail (hms : ∀ m ∈ ms, m.Printable)
    (hfl : (ms.flatMap fun m => byte ',' :: m.write).length ≤ fuel) :
    parseMatchersLoop n fuel (ms.flatMap fun m => byte ',' :: m.write) = .ok ms := by
  induction ms generalizing fuel with
  | nil => cases fuel <;> rfl
  | cons m ms ih =>
    obtain ⟨hm, hms⟩ := forall_mem_cons.1 hms
    simp only [flatMap_cons, length_append, length_cons] at hfl
    obtain ⟨fuel, rfl⟩ : ∃ f, fuel = f + 1 := ⟨fuel - 1, by omega⟩
    have hski : ∀ s, parseMatchersLoop n (fuel + 1) (byte ',' :: s) =
        parseMatchersLoop n (fuel + 1) s := fun s => by
      simp [parseMatchersLoop, show isSeparator (byte ',') by decide]
    rw [flatMap_cons, cons_append, hski, parseMatchersLoop_write hm, ih hms (by omega)]
    rfl

theorem writeMatchers_eq_concat (m : Matcher) (ms : List Matcher) :
    ∃ t, writeMatchers (m :: ms) = t ++ [byte '"'] := by
  induction ms using List.reverseRecOn with
  | nil =>
    exact ⟨m.label ++ m.op.write ++ byte '"' :: m.value, by simp [writeMatchers, Matcher.write]⟩
  | append_singleton ms last _ =>
    refine ⟨writeMatchers (m :: ms) ++
      byte ',' :: (last.label ++ last.op.write ++ byte '"' :: last.value), ?_⟩
    simp [writeMatchers, Matcher.write]

theorem trimSpace_writeMatchers (hm : m.Printable) (ms : List Matcher) :
    trimSpace (writeMatchers (m :: ms)) = writeMatchers (m :: ms) := by
  obtain ⟨b, t, hwr, hb⟩ := hm.head
  obtain ⟨front, hcn⟩ := writeMatchers_eq_concat m ms
  have hco : writeMatchers (m :: ms) = b :: (t ++ ms.flatMap fun m => byte ',' :: m.write) := by
    rw [writeMatchers, hwr, cons_append]
  have hquote : ∀ u ∈ spaces, byte '"' ∉ u := by decide
  rw [hco] at hcn ⊢
  refine trimSpace_eq_self (ne_of_isLabelChar b hb).2.2.2 fun u hu hsf => ?_
  rw [hcn] at hsf
  exact ne_nil_of_mem_spaces u hu
    (suffix_nil.1 (suffix_of_suffix_append_cons (hquote u hu) hsf))

theorem parseMatchers_writeMatchers (hms : ∀ x ∈ m :: ms, x.Printable) :
    parseMatchers (writeMatchers (m :: ms)) = .ok (m :: ms) := by
  obtain ⟨hm, hms⟩ := forall_mem_cons.1 hms
  obtain ⟨b, t, hwri, -⟩ := hm.head
  have hlen : 0 < m.write.length := by simp [hwri]
  rw [parseMatchers, trimSpace_writeMatchers hm]
  simp only [writeMatchers]
  generalize hn : (m.write ++ ms.flatMap fun m => byte ',' :: m.write).length = n
  rw [length_append] at hn
  obtain ⟨fuel, hfl⟩ : ∃ f, n = f + 1 := ⟨n - 1, by omega⟩
  conv_lhs => arg 2; rw [hfl]
  rw [parseMatchersLoop_write hm, parseMatchersLoop_writeTail hms (by omega)]
  rfl

/-! ## The brace finder crosses every written matcher -/

theorem findClosingBraceFrom_plain {p : Bytes}
    (hp : ∀ b ∈ p, b ≠ byte '"' ∧ b ≠ closeBrace) (i : Nat) (rest : Bytes) :
    findClosingBraceFrom false false i (p ++ rest) =
      findClosingBraceFrom false false (i + p.length) rest := by
  induction p generalizing i with
  | nil => rfl
  | cons b p ih =>
    obtain ⟨⟨hq, hb⟩, hp⟩ := forall_mem_cons.1 hp
    simp [hq, hb, ih hp, Nat.add_assoc, Nat.add_comm 1]

theorem findClosingBraceFrom_quotable (hv : Quotable v) (i : Nat) (rest : Bytes) :
    findClosingBraceFrom true false i (v ++ byte '"' :: rest) =
      findClosingBraceFrom false false (i + v.length + 1) rest := by
  induction hv generalizing i with
  | nil => simp [show byte '"' ≠ byte '\\' by decide]
  | plain hq hb _ ih => simp [hq, hb, ih, Nat.add_assoc, Nat.add_comm 1]
  | escape c _ ih => simp [ih, Nat.add_assoc, Nat.add_left_comm]

theorem MatchOp.write_plain (op : MatchOp) : ∀ b ∈ op.write, b ≠ byte '"' ∧ b ≠ closeBrace := by
  cases op <;> exact forall_mem_of_all (by decide)

theorem findClosingBraceFrom_write (hm : m.Printable) (i : Nat) (rest : Bytes) :
    findClosingBraceFrom false false i (m.write ++ rest) =
      findClosingBraceFrom false false (i + m.write.length) rest := by
  have hplain : ∀ b ∈ m.label ++ m.op.write, b ≠ byte '"' ∧ b ≠ closeBrace := by
    intro b hb
    rcases mem_append.1 hb with hb | hb
    · exact ⟨(ne_of_isLabelChar b (hm.label_chars b hb)).1,
        (ne_of_isLabelChar b (hm.label_chars b hb)).2.1⟩
    · exact m.op.write_plain b hb
  have htext : m.write ++ rest =
      (m.label ++ m.op.write) ++ (byte '"' :: (m.value ++ byte '"' :: rest)) := by
    simp [Matcher.write]
  rw [htext, findClosingBraceFrom_plain hplain]
  have hopen : ∀ (j : Nat) (s : Bytes), findClosingBraceFrom false false j (byte '"' :: s) =
      findClosingBraceFrom true false (j + 1) s := fun j s => by
    simp
  rw [hopen, findClosingBraceFrom_quotable hm.value]
  congr 1
  simp [Matcher.write]
  omega

theorem findClosingBraceFrom_writeTail (hms : ∀ m ∈ ms, m.Printable) (i : Nat) (rest : Bytes) :
    findClosingBraceFrom false false i ((ms.flatMap fun m => byte ',' :: m.write) ++ rest) =
      findClosingBraceFrom false false
        (i + (ms.flatMap fun m => byte ',' :: m.write).length) rest := by
  induction ms generalizing i with
  | nil => rfl
  | cons m ms ih =>
    obtain ⟨hm, hms⟩ := forall_mem_cons.1 hms
    have hcm : ∀ b ∈ [byte ','], b ≠ byte '"' ∧ b ≠ closeBrace := forall_mem_of_all (by decide)
    rw [flatMap_cons, append_assoc, cons_append, ← singleton_append,
      findClosingBraceFrom_plain hcm, findClosingBraceFrom_write hm, ih hms]
    congr 1
    simp only [length_append, length_cons, length_nil]
    omega

/-- `s` is `content` between its braces, then `pipeline`, and the brace finder says so. -/
structure Splits (s content pipeline : Bytes) : Prop where
  text : s = openBrace :: content ++ closeBrace :: pipeline
  close : findClosingBrace s = some (content.length + 1)

/-- A written selector ends where its own brace stands, whatever follows. -/
theorem splits_writeMatchers (hms : ∀ x ∈ m :: ms, x.Printable) (pipeline : Bytes) :
    Splits (openBrace :: writeMatchers (m :: ms) ++ closeBrace :: pipeline)
      (writeMatchers (m :: ms)) pipeline := by
  obtain ⟨hm, hms⟩ := forall_mem_cons.1 hms
  refine ⟨rfl, ?_⟩
  have hcl : ∀ i, findClosingBraceFrom false false i (closeBrace :: pipeline) = some i := by
    intro i
    simp [show closeBrace ≠ byte '"' by decide]
  rw [findClosingBrace, cons_append, drop_one, tail_cons, writeMatchers,
    append_assoc, findClosingBraceFrom_write hm, findClosingBraceFrom_writeTail hms, hcl,
    length_append]
  congr 1
  omega

theorem findClosingBraceFrom_inv {inQuote escaped : Bool} {i k : Nat}
    (h : findClosingBraceFrom inQuote escaped i s = some k) :
    ∃ content pipeline, s = content ++ closeBrace :: pipeline ∧ k = i + content.length := by
  induction s generalizing inQuote escaped i with
  | nil => simp at h
  | cons ch s ih =>
    -- Every branch but the one that finds the brace goes on with the next byte.
    have hnx : ∀ {q e : Bool}, findClosingBraceFrom q e (i + 1) s = some k →
        ∃ content pipeline, ch :: s = content ++ closeBrace :: pipeline ∧
          k = i + content.length := by
      intro q e hq
      obtain ⟨content, pipeline, rfl, rfl⟩ := ih hq
      exact ⟨ch :: content, pipeline, rfl, by simp; omega⟩
    unfold findClosingBraceFrom at h
    split at h
    · exact hnx h
    split at h
    · exact hnx h
    split at h
    · exact hnx h
    split at h
    next hbr =>
      obtain ⟨-, rfl⟩ := hbr
      exact ⟨[], s, rfl, by simpa using h.symm⟩
    · exact hnx h

theorem splits_of_findClosingBrace {k : Nat} (hhd : s.head? = some openBrace)
    (h : findClosingBrace s = some k) : Splits s ((s.take k).drop 1) (s.drop (k + 1)) := by
  obtain ⟨t, rfl⟩ : ∃ t, s = openBrace :: t := by
    cases s with
    | nil => cases hhd
    | cons b t => exact ⟨t, by simpa using hhd⟩
  obtain ⟨content, pipeline, ht, hk⟩ := findClosingBraceFrom_inv h
  subst ht hk
  have htk : ((openBrace :: (content ++ closeBrace :: pipeline)).take
      (1 + content.length)).drop 1 = content := by
    simp [Nat.add_comm 1]
  have hdr : (openBrace :: (content ++ closeBrace :: pipeline)).drop
      (1 + content.length + 1) = pipeline := by
    simp [Nat.add_comm 1]
  rw [htk, hdr]
  exact ⟨rfl, by rw [h, Nat.add_comm]⟩

/-! ## The enforced matcher -/

def isDnsChar (b : UInt8) : Bool :=
  (byte 'a' ≤ b && b ≤ byte 'z') || (byte '0' ≤ b && b ≤ byte '9') || b == byte '-'

def DnsName (ns : Bytes) : Prop := ∀ b ∈ ns, isDnsChar b

instance (ns : Bytes) : Decidable (DnsName ns) := List.decidableBAll (fun b => isDnsChar b) ns

theorem plain_of_isDnsChar : ∀ b : UInt8, isDnsChar b →
    b ≠ byte '"' ∧ b ≠ byte '\\' ∧ isRegexMeta b = false ∧ b.toNat < 128 := by
  decide +kernel

theorem escapeRegexValue_dns {ns : Bytes} (h : DnsName ns) : escapeRegexValue ns = ns := by
  induction ns with
  | nil => rfl
  | cons b ns ih =>
    obtain ⟨hb, hns⟩ := forall_mem_cons.1 h
    simpa [escapeRegexValue, (plain_of_isDnsChar b hb).2.2.1] using ih hns

theorem map_escapeRegexValue (h : ∀ ns ∈ allowed, DnsName ns) :
    allowed.map escapeRegexValue = allowed :=
  (map_congr_left fun ns hns => escapeRegexValue_dns (h ns hns)).trans (map_id _)

@[simp] theorem nsMatcher_label (allowed : List Bytes) :
    (nsMatcher allowed).label = namespaceLabel := by
  unfold nsMatcher
  split <;> rfl

theorem nsMatcher_printable (h : ∀ ns ∈ allowed, DnsName ns) : (nsMatcher allowed).Printable := by
  refine ⟨by simp [show namespaceLabel ≠ [] by decide], ?_, quotable_of_forall fun b hb => ?_⟩
  · rw [nsMatcher_label]
    exact forall_mem_of_all (by decide)
  · have hdns : ∀ ns ∈ allowed, ∀ b ∈ ns, b ≠ byte '"' ∧ b ≠ byte '\\' := fun ns hns b hb =>
      ⟨(plain_of_isDnsChar b (h ns hns b hb)).1, (plain_of_isDnsChar b (h ns hns b hb)).2.1⟩
    unfold nsMatcher at hb
    split at hb
    · exact hdns _ mem_cons_self b hb
    · simp only [map_escapeRegexValue h] at hb
      rcases mem_of_mem_intercalate hb with rfl | ⟨ns, hns, hb⟩
      · decide
      · exact hdns ns hns b hb

/-! ## Which streams the matcher selects -/

/-- Regular expressions, matched against a whole label value: between bars, words of ASCII bytes
that mean nothing special match themselves. -/
structure AnchoredRegex where
  fullMatch : Bytes → Bytes → Bool
  alternation : ∀ words : List Bytes, words ≠ [] →
    (∀ w ∈ words, ∀ b ∈ w, isRegexMeta b = false ∧ b.toNat < 128) →
      ∀ v, fullMatch (List.intercalate [byte '|'] words) v = true ↔ v ∈ words

/-- The words between the bars, read literally. -/
def literalRegex : AnchoredRegex where
  fullMatch p v := decide (v ∈ p.splitOn (byte '|'))
  alternation words hne hwords v := by
    have hbar : ∀ w ∈ words, byte '|' ∉ w := fun w hw hb => absurd (hwords w hw _ hb).1 (by decide)
    rw [splitOn_intercalate _ hbar hne, decide_eq_true_iff]

/-- The value is compared as written, so this is for values without escapes. -/
def Matcher.Admits (re : AnchoredRegex) (m : Matcher) (v : Bytes) : Prop :=
  match m.op with
  | .eq => v = m.value
  | .ne => v ≠ m.value
  | .re => re.fullMatch m.value v = true
  | .nre => re.fullMatch m.value v = false

theorem nsMatcher_admits_iff (re : AnchoredRegex) (hne : allowed ≠ [])
    (h : ∀ ns ∈ allowed, DnsName ns) (v : Bytes) :
    (nsMatcher allowed).Admits re v ↔ v ∈ allowed := by
  unfold nsMatcher
  split
  · simp [Matcher.Admits]
  · simp only [Matcher.Admits, map_escapeRegexValue h]
    refine re.alternation allowed hne (fun w hw b hb => ?_) v
    exact (plain_of_isDnsChar b (h w hw b hb)).2.2

/-! ## The isolation theorem -/

/-- When a restricted query is let through, and as what. -/
theorem enforceNamespaces_ok_iff {query out : Bytes} (hne : allowed ≠ []) :
    enforceNamespaces query (some allowed) = .ok out ↔
      query.length ≤ maxQueryLen ∧ ∃ content pipeline ms,
        Splits (trimSpace query) content pipeline ∧ parseMatchers content = .ok ms ∧
          out = openBrace ::
            writeMatchers (nsMatcher allowed :: ms.filter fun m => m.label ≠ namespaceLabel) ++
              closeBrace :: pipeline := by
  constructor
  · intro h
    unfold enforceNamespaces at h
    split at h
    · cases h
    rename_i hlen
    split at h
    · contradiction
    next hnil => exact absurd (Option.some.inj hnil) hne
    rename_i allowed' _ hal
    cases hal
    simp only at h
    split at h
    · cases h
    rename_i hhd
    split at h
    · cases h
    rename_i k hk
    split at h
    · cases h
    rename_i ms hms
    exact ⟨Nat.le_of_not_lt hlen, _, _, ms,
      splits_of_findClosingBrace (Decidable.of_not_not hhd) hk, hms, (Except.ok.inj h).symm⟩
  · rintro ⟨hlen, content, pipeline, ms, hsp, hms, rfl⟩
    obtain ⟨a, as, rfl⟩ := exists_cons_of_ne_nil hne
    have hhd : (trimSpace query).head? = some openBrace := by simp [hsp.text]
    have htk : ((trimSpace query).take (content.length + 1)).drop 1 = content := by
      simp [hsp.text]
    have hdr : (trimSpace query).drop (content.length + 1 + 1) = pipeline := by
      simp [hsp.text]
    simp [enforceNamespaces, not_lt.2 hlen, hhd, hsp.close, htk, hdr, hms]

theorem printable_rewritten (hdns : ∀ ns ∈ allowed, DnsName ns)
    (hms : parseMatchers content = .ok ms) :
    ∀ m ∈ nsMatcher allowed :: ms.filter (fun m => m.label ≠ namespaceLabel), m.Printable :=
  forall_mem_cons.2 ⟨nsMatcher_printable hdns, fun m hm =>
    parseMatchersLoop_printable hms m (mem_of_mem_filter hm)⟩

theorem trimSpace_rewritten {query content' pipeline : Bytes}
    (h : Splits (trimSpace query) content pipeline) :
    trimSpace (openBrace :: content' ++ closeBrace :: pipeline) =
      openBrace :: content' ++ closeBrace :: pipeline := by
  have hcl : ∀ u ∈ spaces, closeBrace ∉ u := by decide
  refine trimSpace_eq_self (by decide) fun u hu hsf => ?_
  refine not_suffix_trimSpace query u hu ?_
  rw [h.text]
  have hsf' : u <:+ (openBrace :: content') ++ closeBrace :: pipeline := hsf
  have hpi : u <:+ pipeline := suffix_of_suffix_append_cons (hcl u hu) hsf'
  exact hpi.trans ((suffix_cons _ _).trans (suffix_append _ _))

/-- The query let through for a restricted user selects on an allowed namespace, keeps the user's
other matchers in order and the pipeline up to white space at the end, and goes through the rewrite
again unchanged. The brace finder puts the end of the selector before the same pipeline in both. -/
theorem enforceNamespaces_isolates (re : AnchoredRegex) (query out : Bytes)
    (allowed : List Bytes) (hne : allowed ≠ []) (hdns : ∀ ns ∈ allowed, DnsName ns)
    (h : enforceNamespaces query (some allowed) = .ok out) :
    ∃ lead trail content content' pipeline ms,
      Blank lead ∧ Blank trail ∧ query = lead ++ trimSpace query ++ trail ∧
      Splits (trimSpace query) content pipeline ∧ parseMatchers content = .ok ms ∧
      Splits out content' pipeline ∧
      parseMatchers content' =
        .ok (nsMatcher allowed :: ms.filter fun m => m.label ≠ namespaceLabel) ∧
      (nsMatcher allowed).label = namespaceLabel ∧
      (∀ v, (nsMatcher allowed).Admits re v ↔ v ∈ allowed) ∧
      (out.length ≤ maxQueryLen → enforceNamespaces out (some allowed) = .ok out) := by
  obtain ⟨-, content, pipeline, ms, hsp, hms, rfl⟩ := (enforceNamespaces_ok_iff hne).1 h
  obtain ⟨lead, trail, hld, htr, hqr⟩ := trimSpace_split query
  have hpri := printable_rewritten hdns hms
  have hsp' := splits_writeMatchers hpri pipeline
  have hrd := parseMatchers_writeMatchers hpri
  refine ⟨lead, trail, content, _, pipeline, ms, hld, htr, hqr, hsp, hms, hsp',
    hrd, nsMatcher_label allowed, nsMatcher_admits_iff re hne hdns, fun hlen => ?_⟩
  -- The output is trimmed and splits as written; its own namespace matcher goes and comes back.
  refine (enforceNamespaces_ok_iff hne).2 ⟨hlen, _, pipeline, _, ?_, hrd, ?_⟩
  · rw [trimSpace_rewritten hsp]
    exact hsp'
  · simp

/-- A quote and a brace inside a negated value, and blanks at both ends. -/
def negatedQuery : Bytes := ascii " \x7bnamespace!=\"kube\\\"\x7d\",app=\"a\"\x7d|= \"x\" "

def negatedQueryEnforced : Bytes := ascii "\x7bnamespace=~\"a-1|b\",app=\"a\"\x7d|= \"x\""

theorem enforceNamespaces_isolates_negatedNamespace :
    enforceNamespaces negatedQuery (some [ascii "a-1", ascii "b"]) = .ok negatedQueryEnforced ∧
      enforceNamespaces negatedQueryEnforced (some [ascii "a-1", ascii "b"]) =
        .ok negatedQueryEnforced := by
  have hrun : enforceNamespaces negatedQuery (some [ascii "a-1", ascii "b"]) =
      .ok negatedQueryEnforced := by decide
  obtain ⟨-, -, -, -, -, -, -, -, -, -, -, -, -, -, -, hag⟩ :=
    enforceNamespaces_isolates literalRegex _ _ _ (by decide) (by decide) hrun
  exact ⟨hrun, hag (by decide)⟩

/-- The blank after the selector is after its closing brace, and is dropped. -/
theorem enforceNamespaces_drops_trailing_blank :
    enforceNamespaces (ascii "\x7ba=\"b\"\x7d ") (some [ascii "x"]) =
        .ok (ascii "\x7bnamespace=\"x\",a=\"b\"\x7d") ∧
      Splits (ascii "\x7ba=\"b\"\x7d ") (ascii "a=\"b\"") (ascii " ") ∧
      Splits (ascii "\x7bnamespace=\"x\",a=\"b\"\x7d") (ascii "namespace=\"x\",a=\"b\"") [] :=
  ⟨by decide, ⟨by decide, by decide⟩, ⟨by decide, by decide⟩⟩

end KubeCenter.Loki

import Stride.Sdk.Bech32
import Mathlib.Data.Nat.Bitwise

/-!
# Encoding of Bech32 Addresses

An encoded address decodes to its bytes. A step of the checksum is linear in exclusive or, so that
the six characters at the end can be computed from six steps with zeros.
-/

namespace Stride.Sdk

open List

/-! ## Encoding -/

def ofBits (bits : List Bool) : ℕ := bits.foldl (fun n b => 2 * n + b.toNat) 0

/-- Groups of five bits. The last one is filled up with zeros. -/
def groupFive : List Bool → List ℕ
  | [] => []
  | [a] => [ofBits [a, false, false, false, false]]
  | [a, b] => [ofBits [a, b, false, false, false]]
  | [a, b, c] => [ofBits [a, b, c, false, false]]
  | [a, b, c, d] => [ofBits [a, b, c, d, false]]
  | a :: b :: c :: d :: e :: rest => ofBits [a, b, c, d, e] :: groupFive rest

def byteBits (bz : List ℕ) : List Bool := bz.flatMap fun v => [7, 6, 5, 4, 3, 2, 1, 0].map v.testBit

/-- The checksum of a human readable part and a data part. -/
def createChecksum (hrp : List Char) (data : List ℕ) : List ℕ :=
  let polymod := (hrpExpand hrp ++ data ++ replicate 6 0).foldl polymodStep 1 ^^^ 1
  [25, 20, 15, 10, 5, 0].map fun i => (polymod >>> i) &&& 31

/-- `bech32.Encode`. -/
def encodeBech32 (hrp : String) (data : List ℕ) : String :=
  String.ofList (hrp.toList ++ '1' ::
    (data ++ createChecksum hrp.toList data).map fun v => charset.getD v 'q')

def convertAndEncode (hrp : String) (bz : List ℕ) : String :=
  encodeBech32 hrp (groupFive (byteBits bz))

/-! ## The checksum -/

/-- The generator for the bits that a step shifts out. -/
def reduction (top : ℕ) : ℕ :=
  generator.zipIdx.foldl (fun acc g => if top.testBit g.2 then acc ^^^ g.1 else acc) 0

private theorem ite_xor (p q : Bool) (g : ℕ) :
    (if (p ^^ q) = true then g else 0) =
      (if p = true then g else 0) ^^^ if q = true then g else 0 := by
  cases p <;> cases q <;> simp

private theorem foldl_ite_xor (top : ℕ) (l : List (ℕ × ℕ)) (acc : ℕ) :
    l.foldl (fun acc g => if top.testBit g.2 then acc ^^^ g.1 else acc) acc =
      acc ^^^ l.foldl (fun acc g => if top.testBit g.2 then acc ^^^ g.1 else acc) 0 := by
  induction l generalizing acc with
  | nil => exact (Nat.xor_zero acc).symm
  | cons g l ih =>
    rw [foldl_cons, foldl_cons, ih]
    nth_rewrite 2 [ih]
    split
    · rw [Nat.zero_xor, Nat.xor_assoc]
    · rw [Nat.zero_xor]

private theorem foldl_testBit_xor (s t : ℕ) (l : List (ℕ × ℕ)) :
    l.foldl (fun acc g => if (s ^^^ t).testBit g.2 then acc ^^^ g.1 else acc) 0 =
      l.foldl (fun acc g => if s.testBit g.2 then acc ^^^ g.1 else acc) 0 ^^^
        l.foldl (fun acc g => if t.testBit g.2 then acc ^^^ g.1 else acc) 0 := by
  induction l with
  | nil => exact (Nat.xor_self 0).symm
  | cons g l ih =>
    have hhead (u : ℕ) : (if u.testBit g.2 then (0 : ℕ) ^^^ g.1 else 0) =
        if u.testBit g.2 = true then g.1 else 0 := by
      rw [Nat.zero_xor]
    rw [foldl_cons, foldl_cons, foldl_cons, foldl_ite_xor, foldl_ite_xor s, foldl_ite_xor t, hhead,
      hhead, ih, Nat.testBit_xor, ite_xor]
    ac_rfl

private theorem reduction_xor (s t : ℕ) : reduction (s ^^^ t) = reduction s ^^^ reduction t :=
  foldl_testBit_xor s t _

private theorem polymodStep_eq (chk v : ℕ) :
    polymodStep chk v = (((chk &&& 0x1ffffff) <<< 5) ^^^ v) ^^^ reduction (chk >>> 25) :=
  foldl_ite_xor _ _ _

/-- **A step of the checksum is linear** in exclusive or. -/
theorem polymodStep_xor (a b u v : ℕ) :
    polymodStep (a ^^^ b) (u ^^^ v) = polymodStep a u ^^^ polymodStep b v := by
  rw [polymodStep_eq, polymodStep_eq, polymodStep_eq, Nat.and_xor_distrib_right,
    Nat.shiftLeft_xor_distrib, Nat.shiftRight_xor_distrib, reduction_xor]
  ac_rfl

variable {hrp : List Char} {bz : List ℕ} {address : String} {v : ℕ}

private theorem polymodStep_of_lt {chk : ℕ} (h : chk < 2 ^ 25) :
    polymodStep chk v = (chk <<< 5) ^^^ v := by
  have hlow : chk &&& 0x1ffffff = chk := by
    have := Nat.and_two_pow_sub_one_of_lt_two_pow h
    simpa using this
  have hhigh : chk >>> 25 = 0 := by
    rw [Nat.shiftRight_eq_div_pow]
    exact Nat.div_eq_of_lt h
  rw [polymodStep_eq, hlow, hhigh]
  exact Nat.xor_zero _

private theorem reduction_lt (top : ℕ) : reduction top < 2 ^ 30 := by
  suffices hgen : ∀ (l : List (ℕ × ℕ)), (∀ g ∈ l, g.1 < 2 ^ 30) → ∀ acc < 2 ^ 30,
      l.foldl (fun acc g => if top.testBit g.2 then acc ^^^ g.1 else acc) acc < 2 ^ 30 from
    hgen _ (by decide) 0 (by decide)
  intro l hl
  induction l with
  | nil =>
    intro acc hacc
    exact hacc
  | cons g l ih =>
    intro acc hacc
    rw [foldl_cons]
    refine ih (fun g' hg' => hl g' (mem_cons_of_mem g hg')) _ ?_
    split
    · exact Nat.xor_lt_two_pow hacc (hl g mem_cons_self)
    · exact hacc

private theorem polymodStep_lt (chk : ℕ) (hv : v < 2 ^ 30) : polymodStep chk v < 2 ^ 30 := by
  have hlow : (chk &&& 0x1ffffff) <<< 5 < 2 ^ 30 := by
    have hand : chk &&& 0x1ffffff < 2 ^ 25 := Nat.and_lt_two_pow chk (by decide)
    omega
  rw [polymodStep_eq]
  exact Nat.xor_lt_two_pow (Nat.xor_lt_two_pow hlow hv) (reduction_lt _)

private theorem shiftLeft_xor_and (t : ℕ) : ((t >>> 5) <<< 5) ^^^ (t &&& 31) = t := by
  apply Nat.eq_of_testBit_eq
  intro i
  have h31 : (31 : ℕ) = 2 ^ 5 - 1 := rfl
  rw [Nat.testBit_xor, Nat.testBit_shiftLeft, Nat.testBit_and, h31, Nat.testBit_two_pow_sub_one]
  by_cases hi : 5 ≤ i
  · simp [hi, not_lt.mpr hi, Nat.add_sub_cancel' hi]
  · simp [hi, not_le.mp hi]

private theorem foldl_polymodStep_digits {s : ℕ} (hs : s < 2 ^ 30) :
    ([25, 20, 15, 10, 5, 0].map fun i => (s >>> i) &&& 31).foldl polymodStep 0 = s := by
  -- after each digit the remainder is what the number starts with
  have hnext (i : ℕ) : (s >>> (i + 5)) <<< 5 ^^^ ((s >>> i) &&& 31) = s >>> i := by
    exact shiftLeft_xor_and (s >>> i)
  have hlt (i : ℕ) (hi : 5 ≤ i) : s >>> i < 2 ^ 25 := by
    rw [Nat.shiftRight_eq_div_pow]
    refine Nat.div_lt_of_lt_mul (lt_of_lt_of_le hs ?_)
    rw [← Nat.pow_add]
    exact Nat.pow_le_pow_right (by decide) (by omega)
  have hfirst : s >>> 30 = 0 := by
    rw [Nat.shiftRight_eq_div_pow]
    exact Nat.div_eq_of_lt hs
  have h25 : polymodStep 0 ((s >>> 25) &&& 31) = s >>> 25 := by
    have := hnext 25
    rw [hfirst] at this
    exact this
  simp only [map_cons, map_nil, foldl_cons, foldl_nil, h25]
  rw [polymodStep_of_lt (hlt 25 (by decide)), hnext 20, polymodStep_of_lt (hlt 20 (by decide)),
    hnext 15, polymodStep_of_lt (hlt 15 (by decide)), hnext 10,
    polymodStep_of_lt (hlt 10 (by decide)), hnext 5, polymodStep_of_lt (hlt 5 (by decide)), hnext 0]
  rfl

/-- Steps from a remainder are steps with zeros from it and steps from zero. -/
theorem foldl_polymodStep_xor (c : ℕ) (d : List ℕ) :
    d.foldl polymodStep c =
      (replicate d.length 0).foldl polymodStep c ^^^ d.foldl polymodStep 0 := by
  suffices hgen : ∀ (d : List ℕ) (a b : ℕ), d.foldl polymodStep (a ^^^ b) =
      (replicate d.length 0).foldl polymodStep a ^^^ d.foldl polymodStep b by
    have := hgen d c 0
    rwa [Nat.xor_zero] at this
  intro d
  induction d with
  | nil =>
    intro a b
    rfl
  | cons v d ih =>
    intro a b
    have hstep : polymodStep (a ^^^ b) v = polymodStep a 0 ^^^ polymodStep b v := by
      have := polymodStep_xor a b 0 v
      rwa [Nat.zero_xor] at this
    rw [foldl_cons, hstep, ih]
    rfl

/-- **The checksum of an encoded address is right.** -/
theorem verifyChecksum_append (hrp : List Char) (data : List ℕ) :
    verifyChecksum hrp (data ++ createChecksum hrp data) = true := by
  set c := (hrpExpand hrp ++ data).foldl polymodStep 1 with hc
  set zeros := (replicate 6 0).foldl polymodStep c with hzeros
  have hlt : zeros < 2 ^ 30 := polymodStep_lt _ (by decide)
  have hone : zeros ^^^ 1 < 2 ^ 30 := Nat.xor_lt_two_pow hlt (by decide)
  have hchecksum : createChecksum hrp data =
      [25, 20, 15, 10, 5, 0].map fun i => ((zeros ^^^ 1) >>> i) &&& 31 := by
    unfold createChecksum
    rw [foldl_append]
  have hfold : (createChecksum hrp data).foldl polymodStep c = 1 := by
    rw [foldl_polymodStep_xor, hchecksum, foldl_polymodStep_digits hone]
    show zeros ^^^ (zeros ^^^ 1) = 1
    rw [← Nat.xor_assoc, Nat.xor_self, Nat.zero_xor]
  unfold verifyChecksum
  rw [← append_assoc, foldl_append, hfold]
  rfl

/-! ## Bits -/

private theorem testBit_ofBits : ∀ a b c d e : Bool,
    [4, 3, 2, 1, 0].map (ofBits [a, b, c, d, e]).testBit = [a, b, c, d, e] := by
  decide

private theorem ofBits_lt : ∀ a b c d e : Bool, ofBits [a, b, c, d, e] < 32 := by
  decide

/-- The groups of five bits have the bits, and less than five zeros. -/
theorem flatMap_groupFive (bits : List Bool) :
    ∃ n ≤ 4, (groupFive bits).flatMap (fun v => [4, 3, 2, 1, 0].map v.testBit) =
      bits ++ replicate n false := by
  induction bits using groupFive.induct with
  | case1 => exact ⟨0, by decide, rfl⟩
  | case2 a => exact ⟨4, by decide, testBit_ofBits a _ _ _ _⟩
  | case3 a b => exact ⟨3, by decide, testBit_ofBits a b _ _ _⟩
  | case4 a b c => exact ⟨2, by decide, testBit_ofBits a b c _ _⟩
  | case5 a b c d => exact ⟨1, by decide, testBit_ofBits a b c d _⟩
  | case6 a b c d e rest ih =>
    obtain ⟨n, hn, hrest⟩ := ih
    refine ⟨n, hn, ?_⟩
    rw [groupFive, flatMap_cons, testBit_ofBits, hrest]
    rfl

private theorem groupFive_lt (bits : List Bool) : ∀ v ∈ groupFive bits, v < 32 := by
  induction bits using groupFive.induct with
  | case1 =>
    intro v hv
    cases hv
  | case6 a b c d e rest ih =>
    intro v hv
    rcases mem_cons.mp hv with rfl | hv
    · exact ofBits_lt _ _ _ _ _
    · exact ih v hv
  | _ =>
    intro v hv
    rw [mem_singleton.mp hv]
    exact ofBits_lt _ _ _ _ _

private theorem ofBits_byte : ∀ v : Fin 256,
    ofBits ([7, 6, 5, 4, 3, 2, 1, 0].map v.val.testBit) = v.val := by
  decide +kernel

/-- **Bytes are found again** in their bits, when less than five zeros follow. -/
theorem groupBytes_byteBits (hbz : ∀ v ∈ bz, v < 256) {n : ℕ} (hn : n ≤ 4) :
    groupBytes (byteBits bz ++ replicate n false) = some bz := by
  induction bz with
  | nil =>
    match n, hn with
    | 0, _ => rfl
    | 1, _ => rfl
    | 2, _ => rfl
    | 3, _ => rfl
    | 4, _ => rfl
  | cons v bz ih =>
    have hbyte := ofBits_byte ⟨v, hbz v mem_cons_self⟩
    have hrest := ih fun w hw => hbz w (mem_cons_of_mem v hw)
    show (groupBytes (byteBits bz ++ replicate n false)).map
      (fun rest => ofBits ([7, 6, 5, 4, 3, 2, 1, 0].map v.testBit) :: rest) = some (v :: bz)
    rw [hrest, hbyte]
    rfl

private theorem convertBits_groupFive (hbz : ∀ v ∈ bz, v < 256) :
    convertBits (groupFive (byteBits bz)) = some bz := by
  obtain ⟨n, hn, hbits⟩ := flatMap_groupFive (byteBits bz)
  unfold convertBits
  rw [hbits]
  exact groupBytes_byteBits hbz hn

/-! ## The round trip -/

private theorem charset_getD : ∀ v : Fin 32, charset.idxOf? (charset.getD v.val 'q') = some v.val ∧
    charset.getD v.val 'q' ≠ '1' ∧ (charset.getD v.val 'q').toLower = charset.getD v.val 'q' ∧
    33 ≤ (charset.getD v.val 'q').toNat ∧ (charset.getD v.val 'q').toNat ≤ 126 := by
  decide

private theorem mapM_charset {values : List ℕ} (h : ∀ v ∈ values, v < 32) :
    (values.map fun v => charset.getD v 'q').mapM (fun c => charset.idxOf? c) = some values := by
  induction values with
  | nil => rfl
  | cons v values ih =>
    have hv := (charset_getD ⟨v, h v mem_cons_self⟩).1
    rw [map_cons, mapM_cons, hv, ih fun w hw => h w (mem_cons_of_mem v hw)]
    rfl

private theorem splitAtLastOne_append {data : List Char} (h : '1' ∉ data) :
    splitAtLastOne (hrp ++ '1' :: data) = some (hrp, data) := by
  have hdata : ∀ c ∈ data.reverse, (decide (c ≠ '1')) = true := by
    intro c hc
    refine decide_eq_true fun heq => h ?_
    rw [← heq]
    exact mem_reverse.mp hc
  have hreverse : (hrp ++ '1' :: data).reverse = data.reverse ++ '1' :: hrp.reverse := by
    simp
  unfold splitAtLastOne
  rw [hreverse, dropWhile_append_of_pos hdata, takeWhile_append_of_pos hdata]
  simp

private theorem createChecksum_lt (hrp : List Char) (data : List ℕ) :
    ∀ v ∈ createChecksum hrp data, v < 32 := by
  intro v hv
  obtain ⟨i, -, rfl⟩ := mem_map.mp hv
  have h31 : (31 : ℕ) < 2 ^ 5 := by decide
  exact Nat.and_lt_two_pow _ h31

/-- **Round trip**: an encoded address decodes to its parts. -/
theorem decodeBech32_encodeBech32 {hrp : String} {data : List ℕ} (hdata : ∀ v ∈ data, v < 32)
    (hne : hrp.toList ≠ []) (hlength : hrp.toList.length + data.length ≤ 1000)
    (hrange : hrp.toList.all fun c => 33 ≤ c.toNat ∧ c.toNat ≤ 126)
    (hlower : hrp.toList.map Char.toLower = hrp.toList) :
    decodeBech32 (encodeBech32 hrp data) = .ok (hrp.toList, data) := by
  set values := data ++ createChecksum hrp.toList data with hvalues
  set tail := values.map fun v => charset.getD v 'q' with htail
  have hlt : ∀ v ∈ values, v < 32 := by
    intro v hv
    rcases mem_append.mp hv with hv | hv
    · exact hdata v hv
    · exact createChecksum_lt _ _ v hv
  have hchecksum : (createChecksum hrp.toList data).length = 6 := rfl
  have hlen : tail.length = data.length + 6 := by
    rw [length_map, hvalues, length_append, hchecksum]
  have hchars : ∀ c ∈ tail, c ≠ '1' ∧ c.toLower = c ∧ 33 ≤ c.toNat ∧ c.toNat ≤ 126 := by
    intro c hc
    obtain ⟨v, hv, rfl⟩ := mem_map.mp hc
    exact (charset_getD ⟨v, hlt v hv⟩).2
  have hpos : 0 < hrp.toList.length := length_pos_iff.mpr hne
  have hlowers : (hrp.toList ++ '1' :: tail).map Char.toLower = hrp.toList ++ '1' :: tail := by
    have htails : tail.map Char.toLower = tail := by
      rw [map_congr_left fun c hc => (hchars c hc).2.1]
      exact map_id tail
    rw [map_append, hlower, map_cons, htails]
    rfl
  have hstring : (encodeBech32 hrp data).toList = hrp.toList ++ '1' :: tail :=
    String.toList_ofList
  unfold decodeBech32
  rw [hstring]
  refine bind_eq_ok.mpr ⟨(), require_eq_ok.mpr ?_, ?_⟩
  · rw [length_append, length_cons]
    omega
  refine bind_eq_ok.mpr ⟨(), require_eq_ok.mpr ?_, ?_⟩
  · rw [all_append, hrange, Bool.true_and, all_eq_true]
    intro c hc
    rcases mem_cons.mp hc with rfl | hc
    · decide
    · exact decide_eq_true (hchars c hc).2.2
  refine bind_eq_ok.mpr ⟨(), require_eq_ok.mpr (.inl hlowers.symm), ?_⟩
  -- the separator is the last 1: the charset has none
  rw [hlowers, splitAtLastOne_append fun hone => (hchars '1' hone).1 rfl]
  refine bind_eq_ok.mpr ⟨(), require_eq_ok.mpr ⟨hne, by omega⟩, ?_⟩
  rw [mapM_charset hlt]
  refine bind_eq_ok.mpr ⟨(), require_eq_ok.mpr (verifyChecksum_append _ _), ?_⟩
  have htake : values.take (values.length - 6) = data := by
    rw [length_append, hchecksum, Nat.add_sub_cancel, take_left]
  rw [htake]
  rfl

private theorem length_groupFive_le (bits : List Bool) : (groupFive bits).length ≤ bits.length := by
  induction bits using groupFive.induct with
  | case6 a b c d e rest ih =>
    rw [groupFive]
    simp only [length_cons]
    omega
  | _ => simp [groupFive]

private theorem decodeAndConvert_convertAndEncode (hbz : ∀ v ∈ bz, v < 256)
    (hlength : bz.length ≤ 100) :
    decodeAndConvert (convertAndEncode "stride" bz) = .ok ("stride".toList, bz) := by
  have hbits : (byteBits bz).length = 8 * bz.length := by
    unfold byteBits
    simp [Nat.mul_comm]
  have hgroups : (groupFive (byteBits bz)).length ≤ 800 := by
    have := length_groupFive_le (byteBits bz)
    omega
  have hhrp : "stride".toList.length = 6 := by decide
  refine bind_eq_ok.mpr ⟨_, decodeBech32_encodeBech32 (groupFive_lt _) (by decide) (by omega)
    (by decide) (by decide), ?_⟩
  dsimp only
  rw [convertBits_groupFive hbz]
  rfl

/-- **The round trip**: the stride address of an account is the account's. -/
theorem accAddressFromBech32_convertAndEncode (hbz : ∀ v ∈ bz, v < 256)
    (hlength : bz.length = 20 ∨ bz.length = 32) :
    accAddressFromBech32 (convertAndEncode "stride" bz) "stride" = .ok bz := by
  have hfirst : 's' ∈ (convertAndEncode "stride" bz).toList := by
    unfold convertAndEncode encodeBech32
    rw [String.toList_ofList]
    exact mem_append_left _ (by decide)
  refine bind_eq_ok.mpr ⟨(), require_eq_ok.mpr ?_, ?_⟩
  · rw [any_eq_true]
    exact ⟨'s', hfirst, by decide⟩
  refine bind_eq_ok.mpr ⟨_, decodeAndConvert_convertAndEncode hbz (by omega), ?_⟩
  refine bind_eq_ok.mpr ⟨(), require_eq_ok.mpr rfl, ?_⟩
  exact bind_eq_ok.mpr ⟨(), require_eq_ok.mpr hlength, rfl⟩

/-! ## Bytes of an address -/

private theorem ofBits_lt_of_byte :
    ∀ a b c d e f g h : Bool, ofBits [a, b, c, d, e, f, g, h] < 256 := by
  decide +kernel

private theorem groupBytes_lt {bits : List Bool} (h : groupBytes bits = some bz) :
    ∀ v ∈ bz, v < 256 := by
  induction bits using groupBytes.induct generalizing bz with
  | case1 b₇ b₆ b₅ b₄ b₃ b₂ b₁ b₀ rest ih =>
    obtain ⟨tail, htail, rfl⟩ := Option.map_eq_some_iff.mp h
    intro v hv
    rcases mem_cons.mp hv with rfl | hv
    · exact ofBits_lt_of_byte _ _ _ _ _ _ _ _
    · exact ih htail v hv
  | case2 rest hshort hzeros =>
    rw [groupBytes, if_pos hzeros] at h
    · cases h
      intro v hv
      cases hv
    · exact hshort
  | case3 rest hshort hzeros =>
    rw [groupBytes, if_neg hzeros] at h
    · cases h
    · exact hshort

def convertAddressToStrideAddress (address : String) : String :=
  match decodeAndConvert address with
  | .ok (_, bz) => convertAndEncode "stride" bz
  | .error _ => ""

private theorem decodeAndConvert_lt (h : decodeAndConvert address = .ok (hrp, bz)) :
    ∀ v ∈ bz, v < 256 := by
  obtain ⟨⟨hrp', data⟩, -, h⟩ := bind_eq_ok.mp h
  dsimp only at h
  split at h
  · cases h
  rename_i bz' hbits
  cases h
  exact groupBytes_lt hbits

/-- **The stride address of a stride address** has the same account. -/
theorem accAddressFromBech32_convertAddress (h : accAddressFromBech32 address "stride" = .ok bz) :
    accAddressFromBech32 (convertAddressToStrideAddress address) "stride" = .ok bz := by
  obtain ⟨_, -, h⟩ := bind_eq_ok.mp h
  obtain ⟨⟨hrp, bz'⟩, hdecode, h⟩ := bind_eq_ok.mp h
  obtain ⟨_, -, h⟩ := bind_eq_ok.mp h
  obtain ⟨_, hformat, h⟩ := bind_eq_ok.mp h
  cases h
  unfold convertAddressToStrideAddress
  rw [hdecode]
  exact accAddressFromBech32_convertAndEncode (decodeAndConvert_lt hdecode)
    (require_eq_ok.mp hformat)

end Stride.Sdk

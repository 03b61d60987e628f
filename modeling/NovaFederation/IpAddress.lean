import NovaFederation.PyString

/-!
# Internet addresses and prefixes

The texts of addresses of both families, and what a prefix denotes: the addresses of its family
that begin with the same bits. A prefix denotes a single host if and only if it is as long as the
addresses of its family.
-/

inductive IpAddress
  | v4 (bits : BitVec 32)
  | v6 (bits : BitVec 128)
  deriving DecidableEq

namespace IpAddress

def width : IpAddress → ℕ
  | .v4 _ => 32
  | .v6 _ => 128

/-! ### Texts of addresses -/

def octet (text : List Char) : Option ℕ :=
  if text ≠ [] ∧ text.length ≤ 3 ∧ text.all Char.isDigit = true ∧
      (text.head? = some '0' → text.length = 1) ∧ Nat.ofDigitChars 10 text 0 < 256 then
    some (Nat.ofDigitChars 10 text 0)
  else none

def readV4 (text : List Char) : Option (BitVec 32) :=
  match (text.splitOn '.').mapM octet with
  | some [a, b, c, d] => some (BitVec.ofNat 32 (((a * 256 + b) * 256 + c) * 256 + d))
  | _ => none

def hexDigit (c : Char) : Option ℕ :=
  if c.isDigit then some (c.toNat - '0'.toNat)
  else if 'a' ≤ c ∧ c ≤ 'f' then some (c.toNat - 'a'.toNat + 10)
  else if 'A' ≤ c ∧ c ≤ 'F' then some (c.toNat - 'A'.toNat + 10)
  else none

def hextet (text : List Char) : Option ℕ :=
  if text ≠ [] ∧ text.length ≤ 4 then
    (text.mapM hexDigit).map fun digits => digits.foldl (fun n d => 16 * n + d) 0
  else none

/-- Groups up to the end of the text, where an address of the other family stands for two. -/
def groupsToEnd : List (List Char) → Option (List ℕ)
  | [] => some []
  | [last] =>
    match hextet last with
    | some n => some [n]
    | none => (readV4 last).map fun bits => [bits.toNat / 65536, bits.toNat % 65536]
  | text :: rest => do
    let n ← hextet text
    let ns ← groupsToEnd rest
    pure (n :: ns)

def ofGroups (groups : List ℕ) : BitVec 128 :=
  BitVec.ofNat 128 (groups.foldl (fun n group => 65536 * n + group) 0)

/-- The groups of a text that may be empty. -/
def groupsOf (parse : List (List Char) → Option (List ℕ)) (text : List Char) : Option (List ℕ) :=
  if text = [] then some [] else parse (text.splitOn ':')

/-- Eight groups, or fewer around `::`. -/
def readV6 (text : List Char) : Option (BitVec 128) :=
  match PyString.cut "::".toList text with
  | none => do
    let groups ← groupsToEnd (text.splitOn ':')
    if groups.length = 8 then pure (ofGroups groups) else none
  | some (before, after) => do
    let front ← groupsOf (List.mapM hextet ·) before
    let back ← groupsOf groupsToEnd after
    if front.length + back.length ≤ 7 then
      pure (ofGroups (front ++ List.replicate (8 - (front.length + back.length)) 0 ++ back))
    else none

def read (text : List Char) : Option IpAddress :=
  match readV4 text with
  | some bits => some (.v4 bits)
  | none => (readV6 text).map .v6

example : read "10.0.0.5".toList = some (.v4 0x0a000005) := by decide +kernel
example : read "2001:db8::a00:5".toList = some (.v6 0x20010db800000000000000000a000005) := by
  decide +kernel

end IpAddress

structure IpPrefix where
  address : IpAddress
  length : ℕ
  le : length ≤ address.width

namespace IpPrefix
open IpAddress

def Covers (p : IpPrefix) (b : IpAddress) : Prop :=
  match p.address, b with
  | .v4 a, .v4 b => a >>> (32 - p.length) = b >>> (32 - p.length)
  | .v6 a, .v6 b => a >>> (128 - p.length) = b >>> (128 - p.length)
  | _, _ => False

def read (text : List Char) : Option IpPrefix :=
  match PyString.cut ['/'] text with
  | none => none
  | some (before, after) =>
    match IpAddress.read before, octet after with
    | some address, some length =>
      if le : length ≤ address.width then some ⟨address, length, le⟩ else none
    | _, _ => none

/-! ### Hosts -/

theorem exists_ne_of_shift {w k : ℕ} (hw : 0 < w) (hk : 0 < k) (a : BitVec w) :
    ∃ b, b ≠ a ∧ a >>> k = b >>> k := by
  have htwo : 2 ≤ 2 ^ w := Nat.le_self_pow hw.ne' 2
  have hone : (1#w).toNat = 1 := by
    rw [BitVec.toNat_ofNat, Nat.mod_eq_of_lt (by omega)]
  refine ⟨a ^^^ 1#w, fun heq => ?_, ?_⟩
  · have hxor := congrArg (a ^^^ ·) heq
    simp only [← BitVec.xor_assoc, BitVec.xor_self, BitVec.zero_xor] at hxor
    rw [hxor, BitVec.toNat_ofNat, Nat.zero_mod] at hone
    cases hone
  · have hshift : 1#w >>> k = 0#w := by
      apply BitVec.eq_of_toNat_eq
      rw [BitVec.toNat_ushiftRight, hone, Nat.shiftRight_eq_div_pow, BitVec.toNat_ofNat,
        Nat.zero_mod]
      exact Nat.div_eq_of_lt (Nat.one_lt_two_pow hk.ne')
    rw [BitVec.ushiftRight_xor_distrib, hshift, BitVec.xor_zero]

/-- A prefix is a host exactly when all bits of its address count. -/
theorem covers_iff_eq_iff (p : IpPrefix) :
    (∀ b, p.Covers b ↔ b = p.address) ↔ p.length = p.address.width := by
  obtain ⟨a, len, hle⟩ := p
  constructor
  · intro hhost
    by_contra hne
    cases a with
    | v4 a =>
      have hlt : len < 32 := Nat.lt_of_le_of_ne hle hne
      obtain ⟨b, hb, hshift⟩ := exists_ne_of_shift (k := 32 - len) (by decide) (by omega) a
      have hcovers : (⟨.v4 a, len, hle⟩ : IpPrefix).Covers (.v4 b) := hshift
      exact hb (IpAddress.v4.inj ((hhost _).1 hcovers))
    | v6 a =>
      have hlt : len < 128 := Nat.lt_of_le_of_ne hle hne
      obtain ⟨b, hb, hshift⟩ := exists_ne_of_shift (k := 128 - len) (by decide) (by omega) a
      have hcovers : (⟨.v6 a, len, hle⟩ : IpPrefix).Covers (.v6 b) := hshift
      exact hb (IpAddress.v6.inj ((hhost _).1 hcovers))
  · intro hlen b
    obtain rfl : len = a.width := hlen
    cases a with
    | v4 a =>
      cases b with
      | v4 b =>
        simp only [Covers, width, Nat.sub_self, BitVec.ushiftRight_zero, v4.injEq]
        exact eq_comm
      | v6 b => simp [Covers]
    | v6 a =>
      cases b with
      | v4 b => simp [Covers]
      | v6 b =>
        simp only [Covers, width, Nat.sub_self, BitVec.ushiftRight_zero, v6.injEq]
        exact eq_comm

end IpPrefix

/-! ### No text of an address has a slash -/

namespace IpAddress

theorem mem_splitOn {text : List Char} {c : Char} (sep : Char) (hc : c ∈ text) (hne : c ≠ sep) :
    ∃ field ∈ text.splitOn sep, c ∈ field := by
  induction text with
  | nil => cases hc
  | cons d rest ih =>
    rw [List.splitOn_cons_eq_if_modifyHead]
    by_cases hd : d = sep
    · rw [if_pos (beq_iff_eq.2 hd)]
      rcases List.mem_cons.1 hc with rfl | hrest
      · exact absurd hd hne
      · obtain ⟨field, hfield, hmem⟩ := ih hrest
        exact ⟨field, List.mem_cons_of_mem _ hfield, hmem⟩
    · rw [if_neg (fun heq => hd (beq_iff_eq.1 heq))]
      obtain ⟨first, fields, hfields⟩ :=
        List.exists_cons_of_ne_nil (List.splitOn_ne_nil sep rest)
      rw [hfields, List.modifyHead_cons]
      rcases List.mem_cons.1 hc with rfl | hrest
      · exact ⟨_, List.mem_cons_self, List.mem_cons_self⟩
      · obtain ⟨field, hfield, hmem⟩ := ih hrest
        rw [hfields] at hfield
        rcases List.mem_cons.1 hfield with rfl | hlater
        · exact ⟨_, List.mem_cons_self, List.mem_cons_of_mem _ hmem⟩
        · exact ⟨field, List.mem_cons_of_mem _ hlater, hmem⟩

theorem exists_of_mapM {α β : Type} {f : α → Option β} {l : List α} {l' : List β}
    (h : l.mapM f = some l') : ∀ a ∈ l, ∃ b, f a = some b := by
  induction l generalizing l' with
  | nil => exact fun a ha => absurd ha List.not_mem_nil
  | cons a l ih =>
    rw [List.mapM_cons] at h
    obtain ⟨b, hb, h⟩ := Option.bind_eq_some_iff.1 h
    obtain ⟨bs, hbs, -⟩ := Option.bind_eq_some_iff.1 h
    exact List.forall_mem_cons.2 ⟨⟨b, hb⟩, ih hbs⟩

theorem slash_of_octet {text : List Char} {n : ℕ} (h : octet text = some n) : '/' ∉ text := by
  unfold octet at h
  split_ifs at h with hcond
  intro hmem
  exact absurd (List.all_eq_true.1 hcond.2.2.1 '/' hmem) (by decide)

theorem slash_of_readV4 {text : List Char} {bits : BitVec 32} (h : readV4 text = some bits) :
    '/' ∉ text := by
  intro hmem
  obtain ⟨field, hfield, hslash⟩ := mem_splitOn '.' hmem (by decide)
  unfold readV4 at h
  cases hoctets : (text.splitOn '.').mapM octet with
  | none =>
    rw [hoctets] at h
    cases h
  | some octets =>
    obtain ⟨n, hn⟩ := exists_of_mapM hoctets field hfield
    exact slash_of_octet hn hslash

theorem slash_of_hextet {text : List Char} {n : ℕ} (h : hextet text = some n) : '/' ∉ text := by
  unfold hextet at h
  split_ifs at h
  obtain ⟨digits, hdigits, -⟩ := Option.map_eq_some_iff.1 h
  intro hmem
  obtain ⟨d, hd⟩ := exists_of_mapM hdigits '/' hmem
  have hnone : hexDigit '/' = none := by decide
  rw [hnone] at hd
  cases hd

theorem slash_of_hextets (fields : List (List Char)) (groups : List ℕ)
    (h : fields.mapM hextet = some groups) : ∀ field ∈ fields, '/' ∉ field := by
  intro field hfield
  obtain ⟨n, hn⟩ := exists_of_mapM h field hfield
  exact slash_of_hextet hn

theorem slash_of_groupsToEnd {fields : List (List Char)} {groups : List ℕ}
    (h : groupsToEnd fields = some groups) : ∀ field ∈ fields, '/' ∉ field := by
  induction fields generalizing groups with
  | nil => exact fun _ hfield => absurd hfield List.not_mem_nil
  | cons first rest ih =>
    cases rest with
    | nil =>
      rw [List.forall_mem_singleton]
      unfold groupsToEnd at h
      cases hhex : hextet first with
      | some n => exact slash_of_hextet hhex
      | none =>
        rw [hhex] at h
        obtain ⟨bits, hbits, -⟩ := Option.map_eq_some_iff.1 h
        exact slash_of_readV4 hbits
    | cons second rest =>
      unfold groupsToEnd at h
      obtain ⟨n, hn, h⟩ := Option.bind_eq_some_iff.1 h
      obtain ⟨ns, hns, -⟩ := Option.bind_eq_some_iff.1 h
      exact List.forall_mem_cons.2 ⟨slash_of_hextet hn, ih hns⟩

theorem slash_of_groupsOf {text : List Char} {groups : List ℕ}
    {parse : List (List Char) → Option (List ℕ)}
    (hparse : ∀ fields ns, parse fields = some ns → ∀ field ∈ fields, '/' ∉ field)
    (h : groupsOf parse text = some groups) : '/' ∉ text := by
  intro hmem
  unfold groupsOf at h
  rw [if_neg (List.ne_nil_of_mem hmem)] at h
  obtain ⟨field, hfield, hslash⟩ := mem_splitOn ':' hmem (by decide)
  exact hparse _ _ h field hfield hslash

theorem slash_of_readV6 {text : List Char} {bits : BitVec 128} (h : readV6 text = some bits) :
    '/' ∉ text := by
  unfold readV6 at h
  cases hcut : PyString.cut "::".toList text with
  | none =>
    rw [hcut] at h
    obtain ⟨groups, hgroups, -⟩ := Option.bind_eq_some_iff.1 h
    intro hmem
    obtain ⟨field, hfield, hslash⟩ := mem_splitOn ':' hmem (by decide)
    exact slash_of_groupsToEnd hgroups field hfield hslash
  | some parts =>
    obtain ⟨before, after⟩ := parts
    rw [hcut] at h
    obtain ⟨front, hfront, h⟩ := Option.bind_eq_some_iff.1 h
    obtain ⟨back, hback, -⟩ := Option.bind_eq_some_iff.1 h
    have hbefore := slash_of_groupsOf slash_of_hextets hfront
    have hafter := slash_of_groupsOf (fun _ _ hns => slash_of_groupsToEnd hns) hback
    rw [PyString.eq_of_cut hcut, List.mem_append, List.mem_append]
    rintro ((hmem | hmem) | hmem)
    · exact hbefore hmem
    · exact absurd hmem (by decide)
    · exact hafter hmem

theorem slash_of_read {text : List Char} {a : IpAddress} (h : read text = some a) :
    '/' ∉ text := by
  unfold read at h
  cases hv4 : readV4 text with
  | some bits => exact slash_of_readV4 hv4
  | none =>
    rw [hv4] at h
    obtain ⟨bits, hbits, -⟩ := Option.map_eq_some_iff.1 h
    exact slash_of_readV6 hbits

end IpAddress

/-- An address with a length behind it is read as that prefix. -/
theorem IpPrefix.read_append {text length : List Char} {a : IpAddress} {n : ℕ}
    (ha : IpAddress.read text = some a) (hn : IpAddress.octet length = some n)
    (hle : n ≤ a.width) :
    IpPrefix.read (text ++ ('/' :: length)) = some ⟨a, n, hle⟩ := by
  have hslash : ¬ ['/'] <:+: text := fun hinf =>
    IpAddress.slash_of_read ha (hinf.subset List.mem_cons_self)
  have hsep : PyString.Unbordered ['/'] := PyString.unbordered_singleton '/'
  have hcut : PyString.cut ['/'] (text ++ '/' :: length) = some (text, length) :=
    PyString.cut_append hsep hslash length
  unfold IpPrefix.read
  rw [hcut]
  simp only [ha, hn, dif_pos hle]

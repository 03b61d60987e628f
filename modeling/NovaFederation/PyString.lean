import Mathlib.Data.List.Infix
import Mathlib.Data.List.TakeWhile
import Mathlib.Tactic.Common

/-!
# String operations of Python

Strings are searched and split as lists of code points. `cut` finds the first occurrence of a
separator; `partition` and `split` are built on it. `int` reads the decimal digits of Unicode 14,
as Python 3.11 does.
-/

namespace PyString

def contains (pattern text : String) : Bool := decide (pattern.toList <:+: text.toList)

/-- `text.startswith(pre)`. -/
def startsWith (text pre : String) : Bool := decide (pre.toList <+: text.toList)

/-- `text.removeprefix(pre)`. -/
def removePrefix (text pre : String) : String :=
  if startsWith text pre then String.ofList (text.toList.drop pre.toList.length) else text

theorem removePrefix_append (pre text : String) : removePrefix (pre ++ text) pre = text := by
  have hstarts : startsWith (pre ++ text) pre = true :=
    decide_eq_true (by rw [String.toList_append]; exact List.prefix_append _ _)
  rw [removePrefix, if_pos hstarts, String.toList_append, List.drop_left, String.ofList_toList]

/-- What stands before and after the first occurrence of a separator. -/
def cut (sep : List Char) : List Char → Option (List Char × List Char)
  | [] => if sep = [] then some ([], []) else none
  | c :: rest =>
    if sep <+: c :: rest then some ([], (c :: rest).drop sep.length)
    else (cut sep rest).map fun (before, after) => (c :: before, after)

theorem eq_of_cut {sep text before after : List Char} (h : cut sep text = some (before, after)) :
    text = before ++ sep ++ after := by
  induction text generalizing before with
  | nil =>
    unfold cut at h
    by_cases hsep : sep = []
    · rw [if_pos hsep] at h
      cases h
      simp [hsep]
    · rw [if_neg hsep] at h
      cases h
  | cons c rest ih =>
    unfold cut at h
    by_cases hsep : sep <+: c :: rest
    · rw [if_pos hsep] at h
      cases h
      exact (List.prefix_iff_eq_append.1 hsep).symm
    · rw [if_neg hsep] at h
      obtain ⟨⟨before', after'⟩, hcut, heq⟩ := Option.map_eq_some_iff.1 h
      cases heq
      rw [ih hcut]
      simp

/-! ### First occurrences -/

/-- Only nothing and the word itself are both its beginning and its end. -/
def Unbordered (word : List Char) : Prop :=
  ∀ border, border <+: word → border <:+ word → border = [] ∨ border = word

theorem unbordered_concat (word : List Char) (last : Char) (h : last ∉ word) :
    Unbordered (word ++ [last]) := by
  intro border hpre hsuf
  by_cases hnil : border = []
  · exact .inl hnil
  · right
    obtain ⟨front, hfront⟩ := hsuf
    have hlast : last ∈ border := by
      have hend := congrArg List.getLast? hfront
      rw [List.getLast?_append_of_ne_nil _ hnil, List.getLast?_concat] at hend
      exact List.mem_of_getLast? hend
    rcases List.prefix_concat_iff.1 hpre with heq | hshort
    · exact heq
    · exact absurd (hshort.subset hlast) h

theorem unbordered_singleton (c : Char) : Unbordered [c] :=
  unbordered_concat [] c List.not_mem_nil

theorem cut_none {sep text : List Char} (h : ¬ sep <:+: text) : cut sep text = none := by
  induction text with
  | nil =>
    have hsep : sep ≠ [] := by
      rintro rfl
      exact h (List.infix_refl [])
    unfold cut
    rw [if_neg hsep]
  | cons c rest ih =>
    have hstart : ¬ sep <+: c :: rest := fun hpre => h hpre.isInfix
    have hrest : ¬ sep <:+: rest := fun hinf => h (hinf.trans (List.suffix_cons c rest).isInfix)
    unfold cut
    rw [if_neg hstart, ih hrest]
    rfl

theorem not_prefix_append {sep text : List Char} (hsep : Unbordered sep) (htext : ¬ sep <:+: text)
    (hne : text ≠ []) (after : List Char) : ¬ sep <+: text ++ (sep ++ after) := by
  rintro ⟨rest, heq⟩
  rcases List.append_eq_append_iff.1 heq with ⟨more, htexteq, -⟩ | ⟨border, hborder, hafter⟩
  · exact htext ⟨[], more, by rw [htexteq, List.nil_append]⟩
  · have hsuf : border <:+ sep := ⟨text, hborder.symm⟩
    have hpre : border <+: sep :=
      List.prefix_of_prefix_length_le ⟨rest, hafter.symm⟩ (List.prefix_append sep after)
        hsuf.length_le
    rcases hsep border hpre hsuf with rfl | rfl
    · rw [List.append_nil] at hborder
      exact htext (hborder ▸ List.infix_refl _)
    · have hlen := congrArg List.length hborder
      rw [List.length_append] at hlen
      have := List.length_pos_iff.2 hne
      omega

theorem cut_append {sep text : List Char} (hsep : Unbordered sep) (htext : ¬ sep <:+: text)
    (after : List Char) : cut sep (text ++ (sep ++ after)) = some (text, after) := by
  induction text with
  | nil =>
    rw [List.nil_append]
    cases sep with
    | nil => exact absurd (List.infix_refl []) htext
    | cons c sep =>
      have hpre : c :: sep <+: c :: (sep ++ after) := List.prefix_append (c :: sep) after
      have hdrop : (c :: (sep ++ after)).drop (c :: sep).length = after := by
        rw [← List.cons_append, List.drop_left]
      rw [List.cons_append]
      unfold cut
      rw [if_pos hpre, hdrop]
  | cons c rest ih =>
    have hrest : ¬ sep <:+: rest := fun hinf =>
      htext (hinf.trans (List.suffix_cons c rest).isInfix)
    have hstart : ¬ sep <+: c :: (rest ++ (sep ++ after)) :=
      not_prefix_append hsep htext (List.cons_ne_nil c rest) after
    rw [List.cons_append]
    unfold cut
    rw [if_neg hstart, ih hrest]
    rfl

/-- `text.partition(sep)`. -/
def partition (text sep : String) : String × String × String :=
  match cut sep.toList text.toList with
  | some (before, after) => (.ofList before, sep, .ofList after)
  | none => (text, "", "")

/-! ### Splitting -/

/-- `text.split(sep, maxsplit)`. -/
def splitN (sep : List Char) : ℕ → List Char → List (List Char)
  | 0, text => [text]
  | n + 1, text =>
    match cut sep text with
    | some (before, after) => before :: splitN sep n after
    | none => [text]

/-- `text.split(sep)`: there are no more separators than characters. -/
def split (text sep : String) : List String :=
  (splitN sep.toList text.length text.toList).map String.ofList

/-- The text ends here, or a separator follows. -/
def EndsAt (sep after : List Char) : Prop := after = [] ∨ sep <+: after

theorem first_field {sep text field : List Char} {n : ℕ} (hn : text.length ≤ n)
    (h : (splitN sep n text)[0]? = some field) :
    ∃ after, text = field ++ after ∧ EndsAt sep after := by
  cases n with
  | zero =>
    obtain rfl := List.length_eq_zero_iff.1 (Nat.le_zero.1 hn)
    obtain rfl := Option.some.inj h
    exact ⟨[], rfl, .inl rfl⟩
  | succ n =>
    unfold splitN at h
    cases hcut : cut sep text with
    | none =>
      rw [hcut] at h
      obtain rfl := Option.some.inj h
      exact ⟨[], by simp, .inl rfl⟩
    | some parts =>
      obtain ⟨before, rest⟩ := parts
      rw [hcut] at h
      obtain rfl := Option.some.inj h
      refine ⟨sep ++ rest, ?_, .inr (List.prefix_append _ _)⟩
      rw [eq_of_cut hcut, List.append_assoc]

theorem splitN_head {sep field after : List Char} {n : ℕ} (hsep : Unbordered sep)
    (hfield : ¬ sep <:+: field) (hend : EndsAt sep after) (hn : (field ++ after).length ≤ n) :
    (splitN sep n (field ++ after))[0]? = some field := by
  rcases hend with rfl | ⟨rest, rfl⟩
  · rw [List.append_nil]
    cases n with
    | zero => rfl
    | succ n =>
      unfold splitN
      rw [cut_none hfield]
      rfl
  · cases n with
    | zero =>
      have hnil := List.append_eq_nil_iff.1 (List.length_eq_zero_iff.1 (Nat.le_zero.1 hn))
      have hsepnil := (List.append_eq_nil_iff.1 hnil.2).1
      exact absurd (hsepnil ▸ List.nil_infix) hfield
    | succ n =>
      unfold splitN
      rw [cut_append hsep hfield]
      rfl

theorem second_field {sep text field : List Char} {n : ℕ} (hsep : sep ≠ [])
    (hn : text.length ≤ n) (h : (splitN sep n text)[1]? = some field) :
    ∃ before after, text = before ++ sep ++ field ++ after ∧ EndsAt sep after := by
  cases n with
  | zero => cases h
  | succ n =>
    unfold splitN at h
    cases hcut : cut sep text with
    | none =>
      rw [hcut] at h
      cases h
    | some parts =>
      obtain ⟨before, rest⟩ := parts
      have htext := eq_of_cut hcut
      have hpos : 0 < sep.length := List.length_pos_iff.2 hsep
      have hrest : rest.length ≤ n := by
        have hlen := congrArg List.length htext
        simp only [List.length_append] at hlen
        omega
      rw [hcut] at h
      obtain ⟨after, rfl, hend⟩ := first_field hrest h
      exact ⟨before, after, by rw [htext, List.append_assoc _ field], hend⟩

theorem getElem?_split (text sep : String) (i : ℕ) :
    (split text sep)[i]? = ((splitN sep.toList text.length text.toList)[i]?).map String.ofList := by
  simp [split]

theorem splitN_ne_nil (sep : List Char) (n : ℕ) (text : List Char) : splitN sep n text ≠ [] := by
  cases n with
  | zero => exact List.cons_ne_nil _ _
  | succ n =>
    unfold splitN
    cases cut sep text with
    | none => exact List.cons_ne_nil _ _
    | some parts => exact List.cons_ne_nil _ _

theorem split_head {text sep : String} {field after : List Char} (hsep : Unbordered sep.toList)
    (hfield : ¬ sep.toList <:+: field) (hend : EndsAt sep.toList after)
    (htext : text.toList = field ++ after) : (split text sep)[0]? = some (.ofList field) := by
  have hn : (field ++ after).length ≤ text.length := by rw [← htext, String.length_toList]
  rw [getElem?_split, htext, splitN_head hsep hfield hend hn]
  rfl

theorem split_second {text sep : String} {before after : List Char} (hsep : Unbordered sep.toList)
    (hbefore : ¬ sep.toList <:+: before) (htext : text.toList = before ++ (sep.toList ++ after)) :
    ∃ field rest, (split text sep)[1]? = some (.ofList field) ∧ after = field ++ rest ∧
      EndsAt sep.toList rest := by
  have hpos : 0 < sep.toList.length := by
    refine List.length_pos_iff.2 fun hnil => hbefore ?_
    rw [hnil]
    exact List.nil_infix
  have hlen := congrArg List.length htext
  rw [String.length_toList, List.length_append, List.length_append] at hlen
  obtain ⟨n, hn⟩ := Nat.exists_eq_add_of_lt (show 0 < text.length by omega)
  have hsplit : splitN sep.toList text.length text.toList =
      before :: splitN sep.toList n after := by
    rw [hn, Nat.zero_add, htext]
    conv_lhs => unfold splitN
    rw [cut_append hsep hbefore]
  obtain ⟨field, hfield⟩ : ∃ field, (splitN sep.toList n after)[0]? = some field := by
    have hne := List.length_pos_iff.2 (splitN_ne_nil sep.toList n after)
    exact ⟨_, List.getElem?_eq_getElem hne⟩
  obtain ⟨rest, hafter, hend⟩ := first_field (by omega) hfield
  refine ⟨field, rest, ?_, hafter, hend⟩
  rw [getElem?_split, hsplit, List.getElem?_cons_succ, hfield]
  rfl

/-! ### Integers -/

/-- The zeros of the decimal digits; the other nine follow each. -/
def decimalZeros : List ℕ :=
  [0x30, 0x660, 0x6f0, 0x7c0, 0x966, 0x9e6, 0xa66, 0xae6, 0xb66, 0xbe6, 0xc66, 0xce6, 0xd66,
    0xde6, 0xe50, 0xed0, 0xf20, 0x1040, 0x1090, 0x17e0, 0x1810, 0x1946, 0x19d0, 0x1a80, 0x1a90,
    0x1b50, 0x1bb0, 0x1c40, 0x1c50, 0xa620, 0xa8d0, 0xa900, 0xa9d0, 0xa9f0, 0xaa50, 0xabf0,
    0xff10, 0x104a0, 0x10d30, 0x11066, 0x110f0, 0x11136, 0x111d0, 0x112f0, 0x11450, 0x114d0,
    0x11650, 0x116c0, 0x11730, 0x118e0, 0x11950, 0x11c50, 0x11d50, 0x11da0, 0x16a60, 0x16ac0,
    0x16b50, 0x1d7ce, 0x1d7d8, 0x1d7e2, 0x1d7ec, 0x1d7f6, 0x1e140, 0x1e2f0, 0x1e950, 0x1fbf0]

/-- `unicodedata.decimal(c)`. -/
def decimal (c : Char) : Option ℕ :=
  (decimalZeros.find? fun base => base ≤ c.toNat && c.toNat < base + 10).map (c.toNat - ·)

def isSpace (c : Char) : Bool :=
  [0x9, 0xa, 0xb, 0xc, 0xd, 0x20, 0x85, 0xa0, 0x1680, 0x2028, 0x2029, 0x202f, 0x205f,
    0x3000].contains c.toNat || (0x2000 ≤ c.toNat && c.toNat ≤ 0x200a)

def strip (text : List Char) : List Char :=
  ((text.dropWhile isSpace).reverse.dropWhile isSpace).reverse

/-- `text.strip()`, which takes the four separators of ASCII for space too. -/
def trim (text : String) : String :=
  let space (c : Char) : Bool := isSpace c || (0x1c ≤ c.toNat && c.toNat ≤ 0x1f)
  .ofList ((text.toList.dropWhile space).reverse.dropWhile space).reverse

def digits (text : List Char) : Option (List ℕ) :=
  let groups := text.splitOn '_'
  if groups.any List.isEmpty then none else groups.flatten.mapM decimal

/-- `sys.get_int_max_str_digits()`. -/
def maxStrDigits : ℕ := 4300

def natural (text : List Char) : Option ℤ :=
  match digits text with
  | some ds =>
    if ds.length ≤ maxStrDigits then some (ds.foldl (fun n d => 10 * n + d) 0 : ℕ) else none
  | none => none

/-- `int(text)`, with `none` for a `ValueError`. -/
def int (text : String) : Option ℤ :=
  match strip text.toList with
  | '-' :: rest => (natural rest).map (- ·)
  | '+' :: rest => natural rest
  | rest => natural rest

/-! ### Decimal texts -/

theorem decimal_of_isDigit {c : Char} (h : c.isDigit = true) :
    decimal c = some (c.toNat - '0'.toNat) := by
  have hc := Char.isDigit_iff_toNat.1 h
  unfold decimal decimalZeros
  rw [List.find?_cons_of_pos]
  · rfl
  · have hlow : (48 : ℕ) ≤ c.toNat := hc.1
    have hhigh : c.toNat ≤ 57 := hc.2
    simp only [Bool.and_eq_true, decide_eq_true_eq]
    omega

theorem isSpace_of_isDigit {c : Char} (h : c.isDigit = true) : isSpace c = false := by
  have hc := Char.isDigit_iff_toNat.1 h
  have hlow : (48 : ℕ) ≤ c.toNat := hc.1
  have hhigh : c.toNat ≤ 57 := hc.2
  unfold isSpace
  simp only [List.contains_eq_mem, List.mem_cons, List.not_mem_nil, or_false, Bool.or_eq_false_iff,
    decide_eq_false_iff_not, Bool.and_eq_false_iff]
  omega

theorem strip_of_digits {text : List Char} (h : ∀ c ∈ text, c.isDigit = true) :
    strip text = text := by
  have hkeep : ∀ l : List Char, (∀ c ∈ l, c.isDigit = true) → l.dropWhile isSpace = l := by
    intro l hl
    rw [List.dropWhile_eq_self_iff]
    intro hpos
    rw [isSpace_of_isDigit (hl _ (List.getElem_mem hpos))]
    decide
  unfold strip
  rw [hkeep text h, hkeep text.reverse (fun c hc => h c (List.mem_reverse.1 hc)),
    List.reverse_reverse]

theorem digits_of_isDigit {text : List Char} (hne : text ≠ [])
    (h : ∀ c ∈ text, c.isDigit = true) :
    digits text = some (text.map fun c => c.toNat - '0'.toNat) := by
  have hsplit : text.splitOn '_' = [text] := by
    rw [List.splitOn_eq_splitOnP]
    refine List.splitOnP_eq_singleton fun c hc => ?_
    by_cases heq : c = '_'
    · exact absurd (heq ▸ h c hc) (by decide)
    · exact beq_false_of_ne heq
  have hmap : ∀ l : List Char, (∀ c ∈ l, c.isDigit = true) →
      l.mapM decimal = some (l.map fun c => c.toNat - '0'.toNat) := by
    intro l hl
    induction l with
    | nil => rfl
    | cons c l ih =>
      rw [List.mapM_cons, decimal_of_isDigit (hl c List.mem_cons_self),
        ih fun d hd => hl d (List.mem_cons_of_mem c hd)]
      rfl
  unfold digits
  simp only [hsplit, List.any_cons, List.any_nil, Bool.or_false, List.isEmpty_iff, if_neg hne,
    List.flatten_cons, List.flatten_nil, List.append_nil, hmap text h]

theorem natural_of_isDigit {text : List Char} (hne : text ≠ [])
    (h : ∀ c ∈ text, c.isDigit = true) (hlen : text.length ≤ maxStrDigits) :
    natural text = some (Nat.ofDigitChars 10 text 0 : ℕ) := by
  unfold natural
  rw [digits_of_isDigit hne h]
  simp only [List.length_map, if_pos hlen, List.foldl_map, Nat.ofDigitChars_eq_foldl]
  rfl

/-- A number is read back from its decimal text. -/
theorem int_toString {n : ℕ} (hn : (toString n).length ≤ maxStrDigits) :
    int (toString n) = some (n : ℤ) := by
  have htext : (toString n).toList = Nat.toDigits 10 n := Nat.toList_repr
  have hdigit : ∀ c ∈ Nat.toDigits 10 n, c.isDigit = true := fun c hc =>
    Nat.isDigit_of_mem_toDigits (by decide) (by decide) hc
  have hlen : (Nat.toDigits 10 n).length ≤ maxStrDigits := by
    rw [← htext, String.length_toList]
    exact hn
  have hnat := natural_of_isDigit Nat.toDigits_ne_nil hdigit hlen
  rw [Nat.ofDigitChars_ten_toDigits] at hnat
  unfold int
  rw [htext, strip_of_digits hdigit]
  split
  · rename_i rest heq
    exact absurd (hdigit '-' (heq ▸ List.mem_cons_self)) (by decide)
  · rename_i rest heq
    exact absurd (hdigit '+' (heq ▸ List.mem_cons_self)) (by decide)
  · exact hnat

end PyString

import NovaFederation.CephRBDClient

/-!
# A lag that the description tells

`get_mirror_status` reads the number after the first key back, whatever stands before the key and
after the comma that ends the number.
-/

namespace NovaFederation
open CephRBDClient PyString

def afterNumber : Option String → String
  | none => ""
  | some rest => "," ++ rest

def described (before : String) (entries : ℕ) (rest : Option String) : String :=
  before ++ "entries_behind_master=" ++ toString entries ++ afterNumber rest

theorem toList_described (before : String) (entries : ℕ) (rest : Option String) :
    (described before entries rest).toList = before.toList ++ ("entries_behind_master=".toList ++
      (Nat.toDigits 10 entries ++ (afterNumber rest).toList)) := by
  have hdigits : (toString entries).toList = Nat.toDigits 10 entries := Nat.toList_repr
  simp only [described, String.toList_append, hdigits, List.append_assoc]

theorem unbordered_key : Unbordered "entries_behind_master=".toList :=
  unbordered_concat "entries_behind_master".toList '=' (by decide)

theorem unbordered_comma : Unbordered ",".toList := unbordered_singleton ','

theorem endsAt_afterNumber (rest : Option String) :
    EndsAt ",".toList (afterNumber rest).toList := by
  cases rest with
  | none => exact .inl rfl
  | some rest =>
    refine .inr ?_
    rw [afterNumber, String.toList_append]
    exact List.prefix_append _ _

theorem isDigit_of_number {entries : ℕ} {c : Char} (h : c ∈ Nat.toDigits 10 entries) :
    c.isDigit = true :=
  Nat.isDigit_of_mem_toDigits (by decide) (by decide) h

/-- The key does not begin within the number. -/
theorem number_of_field {entries : ℕ} {rest part after : List Char}
    (htext : Nat.toDigits 10 entries ++ rest = part ++ after) (hrest : EndsAt ",".toList rest)
    (hafter : EndsAt "entries_behind_master=".toList after) :
    ∃ tail, part = Nat.toDigits 10 entries ++ tail ∧ EndsAt ",".toList tail := by
  rcases List.append_eq_append_iff.1 htext with ⟨tail, hpart, htail⟩ | ⟨more, hdigits, hmore⟩
  · refine ⟨tail, hpart, ?_⟩
    cases tail with
    | nil => exact .inl rfl
    | cons c tail =>
      right
      rcases hrest with rfl | ⟨beyond, rfl⟩
      · cases htail
      · cases htail
        exact List.prefix_append _ _
  · cases more with
    | nil => exact ⟨[], by simp [hdigits], .inl rfl⟩
    | cons c more =>
      exfalso
      rcases hafter with rfl | ⟨beyond, rfl⟩
      · cases hmore
      · obtain rfl : 'e' = c := by injection hmore
        have hmem : 'e' ∈ Nat.toDigits 10 entries := by
          rw [hdigits]
          exact List.mem_append_right _ List.mem_cons_self
        exact absurd (isDigit_of_number hmem) (by decide)

theorem entriesBehindMaster_described {before : String} {entries : ℕ} (rest : Option String)
    (hbefore : contains "entries_behind_master=" before = false)
    (hentries : (toString entries).length ≤ maxStrDigits) :
    entriesBehindMaster (described before entries rest) = some (entries : ℤ) := by
  have hkey : ¬ "entries_behind_master=".toList <:+: before.toList := of_decide_eq_false hbefore
  have hcomma : ¬ ",".toList <:+: Nat.toDigits 10 entries := fun hinf =>
    absurd (isDigit_of_number (hinf.subset (List.mem_singleton.2 rfl))) (by decide)
  have hdigits : String.ofList (Nat.toDigits 10 entries) = toString entries :=
    Nat.repr_eq_ofList_toDigits.symm
  obtain ⟨part, after, hpart, hnumber, hafter⟩ :=
    split_second unbordered_key hkey (toList_described before entries rest)
  obtain ⟨tail, rfl, htail⟩ := number_of_field hnumber (endsAt_afterNumber rest) hafter
  have hhead := split_head unbordered_comma hcomma htail String.toList_ofList
  unfold entriesBehindMaster
  rw [hpart, Option.bind_eq_bind, Option.bind_some, hhead, Option.bind_some, hdigits]
  exact int_toString hentries

theorem contains_described (before : String) (entries : ℕ) (rest : Option String) :
    contains "entries_behind_master" (described before entries rest) = true := by
  refine decide_eq_true ⟨before.toList, '=' :: (Nat.toDigits 10 entries ++
    (afterNumber rest).toList), ?_⟩
  have hkey : "entries_behind_master=".toList = "entries_behind_master".toList ++ ['='] := by decide
  rw [toList_described, hkey]
  simp only [List.append_assoc, List.cons_append, List.nil_append]

theorem known_lag (pool image before : String) (entries : ℕ) (rest state : Option String)
    (hbefore : contains "entries_behind_master=" before = false)
    (hentries : (toString entries).length ≤ maxStrDigits) :
    let status := getMirrorStatus pool image ⟨state, some (described before entries rest)⟩
    status.lagBytes = 4096 * entries ∧
      (status.synced = true ↔ state = some "up+replaying" ∧ entries = 0) := by
  intro status
  have hlag : status.lagBytes = 4096 * entries := by
    have hparsed := entriesBehindMaster_described rest hbefore hentries
    simp only [status, getMirrorStatus, Option.getD_some, contains_described, if_true, hparsed]
    omega
  refine ⟨hlag, (synced_iff _ _ _).trans (and_congr_right fun _ => ?_)⟩
  rw [hlag]
  omega

/-- The key may come again after the comma. -/
theorem known_lag_replaying :
    let status := getMirrorStatus "rbd" "volume-a" ⟨some "up+replaying",
      some (described "replaying, " 1024 (some " entries_behind_master=0,"))⟩
    status.lagBytes = 4096 * 1024 ∧
      (status.synced = true ↔ some "up+replaying" = some "up+replaying" ∧ 1024 = 0) :=
  known_lag _ _ _ _ _ _ (by decide +kernel) (by decide +kernel)

end NovaFederation

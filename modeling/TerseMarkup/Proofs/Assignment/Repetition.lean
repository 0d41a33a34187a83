import TerseMarkup.Proofs.Assignment.Origin

/-! Codes that are shortened once more.

A second run over the codes of a first one meets, request for request, what the first has met: where
the first table has a name with its code, the second has the code with itself (`Table.overCodes`). A
code that was minted is minted again, because both tables have the same size. A code that was lent
has a code of the table in it, and the substring that is exchanged is exchanged for itself. So the
run returns its own requests (`coded_coded`), as long as the first one tells names apart. -/
namespace TerseMarkup

namespace Entries

theorem get?_of_mem {e : Entries} (hnodup : (e.map Prod.fst).Nodup) {name code : Text}
    (h : (name, code) ∈ e) : e.get? name = some code := by
  obtain ⟨earlier, later, rfl⟩ := List.append_of_mem h
  rw [List.map_append, List.map_cons, List.nodup_append] at hnodup
  refine List.lookup_eq_some_iff.mpr ⟨earlier, later, rfl, fun entry hentry => ?_⟩
  exact bne_iff_ne.mpr fun heq =>
    hnodup.2.2 entry.1 (List.mem_map_of_mem hentry) name List.mem_cons_self heq.symm

/-- Every code as a name that stands for itself. -/
def overCodes (e : Entries) : Entries := e.map fun (_, code) => (code, code)

theorem get?_overCodes_of_mem {e : Entries} {code : Text} (h : code ∈ e.map Prod.snd) :
    e.overCodes.get? code = some code := by
  cases hfind : e.overCodes.get? code with
  | none =>
    refine absurd ?_ ((get?_eq_none_iff _ _).mp hfind)
    simpa [overCodes] using h
  | some code' =>
    obtain ⟨entry, -, heq⟩ := List.mem_map.mp (mem_of_get? hfind)
    obtain ⟨rfl, rfl⟩ := Prod.mk.inj heq
    rfl

theorem get?_overCodes_of_not_mem {e : Entries} {code : Text} (h : code ∉ e.map Prod.snd) :
    e.overCodes.get? code = none := by
  refine (get?_eq_none_iff _ _).mpr fun hmem => h ?_
  simpa [overCodes] using hmem

/-- Whatever is lent among such entries is the name itself. -/
theorem text_of_lender?_overCodes {e : Entries} {name : Text} {l : Loan}
    (h : e.overCodes.lender? name = some l) : l.text = name := by
  obtain ⟨hmem, -, hname⟩ := lender?_eq_some h
  obtain ⟨entry, -, heq⟩ := List.mem_map.mp hmem
  obtain ⟨hlender, hcode⟩ := Prod.mk.inj heq
  rw [hname, Loan.text, ← hlender, ← hcode]

end Entries

namespace Table

/-- The table in which every code stands for itself. -/
def overCodes (t : Table) : Table :=
  { t with classes := t.classes.overCodes, ids := t.ids.overCodes }

@[simp] theorem entries_overCodes (t : Table) (k : Kind) :
    t.overCodes.entries k = (t.entries k).overCodes := by
  cases k <;> rfl

@[simp] theorem counter_overCodes (t : Table) : t.overCodes.counter = t.counter := by
  simp [counter, size, overCodes, Entries.overCodes]

theorem skip_counter (t : Table) : { t with skipped := t.counter - t.size } = t := by
  rw [counter, Nat.add_sub_cancel_left]

theorem eq_of_entries_eq {t t' : Table} (h : ∀ k, t.entries k = t'.entries k)
    (hskipped : t.skipped = t'.skipped) : t = t' := by
  obtain ⟨classes, ids, skipped⟩ := t
  obtain rfl : classes = t'.classes := h .className
  obtain rfl : ids = t'.ids := h .id
  obtain rfl : skipped = t'.skipped := hskipped
  rfl

theorem overCodes_insert {t : Table} {k : Kind} {name code : Text} (hfind : t.find? k name = none)
    (hnew : t.overCodes.find? k code = none) :
    t.overCodes.insert k code code = (t.insert k name code).overCodes := by
  refine eq_of_entries_eq (fun k' => ?_) ?_
  · rw [entries_overCodes, entries_insert code hnew, entries_insert code hfind, entries_overCodes,
      entries_overCodes]
    split
    · rw [Entries.overCodes, Entries.overCodes, List.map_append]
      rfl
    · rfl
  · rw [skipped_insert]
    exact (skipped_insert t k name code).symm

/-- Names of a kind are told apart by their codes. -/
def CodesDiffer (t : Table) : Prop :=
  ∀ k v w code, t.find? k v = some code → t.find? k w = some code → v = w

theorem codesDiffer_of_nodup {t : Table} (h : ∀ k, ((t.entries k).map Prod.snd).Nodup) :
    t.CodesDiffer := by
  intro k v w code hv hw
  have hpair := List.inj_on_of_nodup_map (h k) (Entries.mem_of_get? hv) (Entries.mem_of_get? hw) rfl
  exact congrArg Prod.fst hpair

theorem CodesDiffer.of_growsTo {t t' : Table} (h : t'.CodesDiffer) (hgrows : t.GrowsTo t') :
    t.CodesDiffer :=
  fun k v w code hv hw => h k v w code (hgrows.find? hv) (hgrows.find? hw)

/-- The code of a new name is none of the table's. -/
theorem CodesDiffer.not_mem {t : Table} {k : Kind} {name code : Text}
    (h : (t.insert k name code).CodesDiffer) (hnodup : (t.names k).Nodup)
    (hfind : t.find? k name = none) : code ∉ (t.entries k).map Prod.snd := by
  intro hmem
  obtain ⟨⟨name', code'⟩, hentry, rfl⟩ := List.mem_map.mp hmem
  have hold : t.find? k name' = some code' := Entries.get?_of_mem hnodup hentry
  have hsame : name = name' := h k name name' code' (find?_insert code' hfind)
    ((GrowsTo.insert code' hfind).find? hold)
  rw [hsame, hold] at hfind
  exact nomatch hfind

end Table

namespace Shortener

variable {s : Shortener} {t : Table} {k : Kind} {name code : Text}

theorem Assigned.code_ne_nil (h : s.Assigned t) (hfind : t.find? k name = some code) :
    code ≠ [] := by
  obtain ⟨l, hl, rfl⟩ := h.lent k name code hfind
  obtain ⟨n, -, hcode, -⟩ := h.minted k l.lender l.code (Table.root_of_lender? hl)
  rw [Loan.text, hcode]
  exact List.append_ne_nil_of_left_ne_nil
    (List.append_ne_nil_of_right_ne_nil _ (Codec.encode_ne_nil _ _)) _

/-! ### One request -/

/-- A code that the second table knows is its own answer. -/
theorem assign_overCodes_of_mem (hname : s.renames k code = true)
    (h : code ∈ (t.entries k).map Prod.snd) :
    s.assign k code t.overCodes = (some code, t.overCodes) := by
  have hknown : t.overCodes.find? k code = some code := by
    rw [Table.find?, Table.entries_overCodes]
    exact Entries.get?_overCodes_of_mem h
  cases s.outcome k code t.overCodes with
  | declined hdeclined _ => exact absurd (hname.symm.trans hdeclined) (by decide)
  | known _ hfind hresult =>
    obtain rfl := Option.some.inj (hknown.symm.trans hfind)
    exact hresult
  | lent _ hfind _ _ => exact absurd (hknown.symm.trans hfind) (by simp)
  | minted _ hfind _ _ _ _ _ => exact absurd (hknown.symm.trans hfind) (by simp)

/-- With nothing exempt, minting passes no counter over. -/
theorem eq_counter_of_minted {n : Nat} (hempty : s.whitelist = {}) (hcounter : t.counter ≤ n)
    (hpassed : ∀ m, t.counter ≤ m → m < n → s.whitelist.contains k (s.codec.encode m) = true) :
    t.counter = n := by
  refine Nat.le_antisymm hcounter (Nat.not_lt.mp fun hlt => ?_)
  have hexempt := hpassed t.counter (Nat.le_refl _) hlt
  rw [hempty, Whitelist.contains_iff] at hexempt
  exact absurd hexempt List.not_mem_nil

/-- A new code is its own answer as well: something in it stands for itself, or it is minted at the
counter that it has been minted at before. -/
theorem assign_overCodes_of_new (hempty : s.whitelist = {}) (hname : s.renames k code = true)
    (hfind : t.find? k name = none) (hnew : code ∉ (t.entries k).map Prod.snd)
    (hminted : t.overCodes.lender? k code = none → code = s.codec.encode t.counter) :
    s.assign k code t.overCodes = (some code, (t.insert k name code).overCodes) := by
  have hunknown : t.overCodes.find? k code = none := by
    rw [Table.find?, Table.entries_overCodes]
    exact Entries.get?_overCodes_of_not_mem hnew
  cases s.outcome k code t.overCodes with
  | declined hdeclined _ => exact absurd (hname.symm.trans hdeclined) (by decide)
  | known _ hknown _ => exact absurd (hunknown.symm.trans hknown) (by simp)
  | lent _ _ hlender hresult =>
    rw [Table.lender?, Table.entries_overCodes] at hlender
    rw [Entries.text_of_lender?_overCodes hlender, Table.overCodes_insert hfind hunknown] at hresult
    exact hresult
  | @minted n _ _ hlender hcounter hpassed _ hresult =>
    obtain rfl := eq_counter_of_minted hempty hcounter hpassed
    rw [Table.skip_counter, Table.counter_overCodes, ← hminted hlender,
      Table.overCodes_insert hfind hunknown] at hresult
    exact hresult

/-- **A request and the same request for its code** leave tables that have the same codes. -/
theorem assign_overCodes (h : s.Assigned t) (hempty : s.whitelist = {})
    (hname : s.renames k name = true) (hdiffer : (s.assign k name t).2.CodesDiffer) :
    ∃ code, s.assign k name t = (some code, (s.assign k name t).2) ∧
      s.assign k code t.overCodes = (some code, (s.assign k name t).2.overCodes) := by
  have hcode : ∀ code, (s.assign k name t).1 = some code → s.renames k code = true := by
    intro code hanswer
    refine (s.renames_iff k code).mpr
      ⟨(assigned_assign k name t h).code_ne_nil (find?_assign hanswer), ?_⟩
    rw [hempty]
    rfl
  cases s.outcome k name t with
  | declined hdeclined _ => exact absurd (hname.symm.trans hdeclined) (by decide)
  | @known code _ hfind hresult =>
    rw [hresult] at hcode ⊢
    have hmem : code ∈ (t.entries k).map Prod.snd :=
      List.mem_map.mpr ⟨(name, code), Entries.mem_of_get? hfind, rfl⟩
    exact ⟨code, rfl, assign_overCodes_of_mem (hcode code rfl) hmem⟩
  | @lent l _ hfind hlender hresult =>
    rw [hresult] at hcode hdiffer ⊢
    refine ⟨l.text, rfl, assign_overCodes_of_new hempty (hcode _ rfl) hfind
      (hdiffer.not_mem (h.nodup k) hfind) fun hnone => ?_⟩
    -- The code that has been lent occurs in the text, so something is lent again.
    have hlent := (Entries.lender?_eq_some hlender).1
    rw [Table.lender?, Table.entries_overCodes, Entries.lender?_eq_none_iff] at hnone
    have hoccurs : l.code = [] ∨ ¬ l.code <:+: l.text :=
      hnone (l.code, l.code) (List.mem_map_of_mem (f := fun e => (e.2, e.2)) hlent)
    have hne : l.code ≠ [] := h.code_ne_nil (Entries.get?_of_mem (h.nodup k) hlent)
    exact absurd ⟨l.before, l.after, rfl⟩ (hoccurs.resolve_left hne)
  | @minted n _ hfind _ hcounter hpassed _ hresult =>
    obtain rfl := eq_counter_of_minted hempty hcounter hpassed
    rw [Table.skip_counter] at hresult
    rw [hresult] at hcode hdiffer ⊢
    exact ⟨_, rfl, assign_overCodes_of_new hempty (hcode _ rfl) hfind
      (hdiffer.not_mem (h.nodup k) hfind) fun _ => rfl⟩

/-! ### Many requests -/

variable (s) in
/-- The codes that requests in turn are answered with, each with the kind it was asked for under. -/
def coded : List Mention → Table → List Mention
  | [], _ => []
  | (k, name) :: rest, t =>
    ((s.assign k name t).1.map (k, ·)).toList ++ coded rest (s.assign k name t).2

theorem coded_overCodes (h : s.Assigned t) (hempty : s.whitelist = {}) {mentions : List Mention}
    (hnames : ∀ m ∈ mentions, m.2 ≠ []) (hdiffer : (s.assignAll mentions t).CodesDiffer) :
    (s.coded mentions t).map Prod.fst = mentions.map Prod.fst ∧
      s.coded (s.coded mentions t) t.overCodes = s.coded mentions t := by
  induction mentions generalizing t with
  | nil => exact ⟨rfl, rfl⟩
  | cons m rest ih =>
    obtain ⟨k, name⟩ := m
    obtain ⟨hne, hrest⟩ := List.forall_mem_cons.mp hnames
    have hname : s.renames k name = true := by
      refine (s.renames_iff k name).mpr ⟨hne, ?_⟩
      rw [hempty]
      rfl
    have hstep : (s.assign k name t).2.CodesDiffer :=
      hdiffer.of_growsTo (growsTo_assignAll rest _)
    obtain ⟨code, hfirst, hsecond⟩ := assign_overCodes h hempty hname hstep
    obtain ⟨hkinds, hcodes⟩ := ih (assigned_assign k name t h) hrest hdiffer
    rw [coded, hfirst]
    refine ⟨congrArg (k :: ·) hkinds, ?_⟩
    show s.coded ((k, code) :: s.coded rest _) _ = _
    rw [coded, hsecond, hcodes]

/-- **Shortening codes once more changes none of them**, if the first run has told all names of a
kind apart: request for request, the second run returns the code that it is asked for. -/
theorem coded_coded (salt : Text) {mentions : List Mention} (hnames : ∀ m ∈ mentions, m.2 ≠ [])
    (hdiffer : ((ofSettings { salt }).assignAll mentions .empty).CodesDiffer) :
    let s := ofSettings { salt }
    let codes := s.coded mentions .empty
    codes.map Prod.fst = mentions.map Prod.fst ∧ s.coded codes .empty = codes :=
  coded_overCodes assigned_empty rfl hnames hdiffer

/-- `foob` takes the code `a` of `foo`, so it becomes `ab`; `a` within `ab` is exchanged for `a`. -/
theorem coded_coded_foob :
    let s := ofSettings { salt := [] }
    let mentions : List Mention := [(.className, ['f', 'o', 'o']),
      (.className, ['f', 'o', 'o', 'b']), (.id, ['x']), (.className, ['f', 'o', 'o'])]
    let codes : List Mention := [(.className, ['a']), (.className, ['a', 'b']), (.id, ['c']),
      (.className, ['a'])]
    s.coded mentions .empty = codes ∧ s.coded codes .empty = codes := by
  intro s mentions codes
  have hnames : ∀ m ∈ mentions, m.2 ≠ [] := by decide
  have hdiffer : (s.assignAll mentions .empty).CodesDiffer :=
    Table.codesDiffer_of_nodup fun k => by cases k <;> decide +kernel
  have hcodes : s.coded mentions .empty = codes := by decide +kernel
  have hsecond := (coded_coded [] hnames hdiffer).2
  exact ⟨hcodes, hcodes ▸ hsecond⟩

end Shortener
end TerseMarkup

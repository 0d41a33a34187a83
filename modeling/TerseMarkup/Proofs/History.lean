import TerseMarkup.Proofs.Assignment

/-! The counters of a table over time.

A table's counter is nowhere kept: it is the number of entries together with the number of counters
passed over. Entries may be the caller's own, known names may be put again, and codes may be minted
and thrown away; the counter never goes back (`counter_le_perform`), minting looks at counters from
there on, and a request that mints leaves the counter of its code behind (`counter_lt_perform`).
What is read off the operations of a history is therefore read at ever higher counters
(`increasing_collect`): no code is minted for two names (`mintings_increase`), a minted code is that
of no name with a minted code (`mint_fresh_iff`), and no exempt name is passed over twice
(`passedOver_bounded`). -/
namespace TerseMarkup

/-- What can be done to a table. -/
inductive Operation
  /-- An entry of the caller's own. -/
  | insert (k : Kind) (name code : Text)
  | mint (k : Kind)
  | resolve (k : Kind) (name : Text)
  | assign (k : Kind) (name : Text)

namespace Entries

theorem length_le_put (e : Entries) (name code : Text) : e.length ≤ (e.put name code).length := by
  induction e with
  | nil => exact Nat.zero_le _
  | cons entry rest ih =>
    obtain ⟨n, c⟩ := entry
    rw [put]
    split
    · exact Nat.le_refl _
    · exact Nat.succ_le_succ ih

end Entries

namespace Table

/-- Whether a name has a code, of its own or of a name within it. -/
def knows (t : Table) (k : Kind) (name : Text) : Bool :=
  (t.find? k name).isSome || (t.findWithin? k name).isSome

theorem resolve_of_knows {t : Table} {k : Kind} {name : Text} (h : t.knows k name = true)
    (codec : Codec) (w : Whitelist) : (t.resolve k name codec w).2 = t := by
  rw [resolve]
  cases hfind : t.find? k name with
  | some code => rfl
  | none => cases hwithin : t.findWithin? k name with
    | some code => rfl
    | none => simp [knows, hfind, hwithin] at h

theorem find?_of_not_knows {t : Table} {k : Kind} {name : Text} (h : t.knows k name = false) :
    t.find? k name = none ∧ t.findWithin? k name = none := by
  simpa [knows] using h

theorem resolve_of_not_knows {t : Table} {k : Kind} {name : Text} (h : t.knows k name = false)
    (codec : Codec) (w : Whitelist) : t.resolve k name codec w = t.mint k codec w := by
  obtain ⟨hfind, hwithin⟩ := find?_of_not_knows h
  rw [resolve, hfind, hwithin]

theorem counter_le_insert (t : Table) (k : Kind) (name code : Text) :
    t.counter ≤ (t.insert k name code).counter := by
  have hclasses := t.classes.length_le_put name code
  have hids := t.ids.length_le_put name code
  rw [counter, counter, skipped_insert, size, size]
  cases k <;> simp only [insert] <;> omega

/-! ### Minting -/

section Mint

variable (t : Table) (k : Kind) (codec : Codec) (w : Whitelist)

/-- The counter of the code that minting returns. -/
def minted : Nat := (t.mint k codec w).2.counter

/-- The counters that minting passes over. -/
def passed : List Nat := List.range' t.counter (t.minted k codec w - t.counter)

theorem counter_le_minted : t.counter ≤ t.minted k codec w := by
  obtain ⟨n, hmint, hn, -⟩ := t.mint_eq k codec w
  rw [minted, hmint, counter_skip t hn]
  exact hn

theorem mint_eq_minted : t.mint k codec w =
    (codec.encode (t.minted k codec w), { t with skipped := t.minted k codec w - t.size }) := by
  obtain ⟨n, hmint, hn, -⟩ := t.mint_eq k codec w
  rw [minted, hmint, counter_skip t hn]

variable {t k codec w}

theorem mem_passed {n : Nat} : n ∈ t.passed k codec w ↔ t.counter ≤ n ∧ n < t.minted k codec w := by
  have := t.counter_le_minted k codec w
  rw [passed, List.mem_range'_1]
  omega

theorem exempt_of_mem_passed {n : Nat} (h : n ∈ t.passed k codec w) :
    w.contains k (codec.encode n) = true := by
  obtain ⟨n', hmint, hn', hpassed, -⟩ := t.mint_eq k codec w
  obtain ⟨hn, hlt⟩ := mem_passed.mp h
  rw [minted, hmint, counter_skip t hn'] at hlt
  exact hpassed n hn hlt

theorem minted_free (hc : codec.Distinct) :
    w.contains k (codec.encode (t.minted k codec w)) = false := by
  obtain ⟨n, hmint, hn, -, hfree⟩ := t.mint_eq k codec w
  rw [minted, hmint, counter_skip t hn]
  exact hfree hc

theorem skipped_mint :
    (t.mint k codec w).2.skipped = t.skipped + (t.passed k codec w).length := by
  have := t.counter_le_minted k codec w
  rw [mint_eq_minted, passed, List.length_range']
  show t.minted k codec w - t.size = _
  rw [counter] at *
  omega

end Mint

end Table

namespace Shortener

variable (s : Shortener)

/-- The table after an operation. -/
def perform (t : Table) : Operation → Table
  | .insert k name code => t.insert k name code
  | .mint k => (t.mint k s.codec s.whitelist).2
  | .resolve k name => (t.resolve k name s.codec s.whitelist).2
  | .assign k name => (s.assign k name t).2

/-- The table after operations in turn. -/
def performAll (ops : List Operation) (t : Table) : Table := ops.foldl s.perform t

/-- The kind that an operation mints a code for, if it mints one. -/
def mintsFor? (t : Table) : Operation → Option Kind
  | .insert _ _ _ => none
  | .mint k => some k
  | .resolve k name => if t.knows k name then none else some k
  | .assign k name => if s.renames k name && !t.knows k name then some k else none

/-- A name with the counter that its code has been minted from. -/
structure Minting where
  kind : Kind
  name : Text
  counter : Nat

/-- The minting of a request that mints. -/
def minting? (t : Table) : Operation → Option Minting
  | .assign k name => (s.mintsFor? t (.assign k name)).map fun k =>
    ⟨k, name, t.minted k s.codec s.whitelist⟩
  | _ => none

/-- The counters that an operation passes over, with the kind that it mints for. -/
def passed (t : Table) (op : Operation) : List (Kind × Nat) :=
  match s.mintsFor? t op with
  | some k => (t.passed k s.codec s.whitelist).map (k, ·)
  | none => []

/-- What is read off every operation of a history and the table that it finds. -/
def collect {α : Type} (f : Table → Operation → List α) : List Operation → Table → List α
  | [], _ => []
  | op :: rest, t => f t op ++ collect f rest (s.perform t op)

/-- The mintings of a history. -/
def mintings (ops : List Operation) (t : Table) : List Minting :=
  s.collect (fun t op => (s.minting? t op).toList) ops t

/-- The exempt names that a history passes over, as the whitelist has them. -/
def passedOver (ops : List Operation) (t : Table) : List Text :=
  (s.collect s.passed ops t).map fun (k, n) => k.sigil :: s.codec.encode n

/-! ### One operation -/

variable {s} {t : Table}

theorem assign_of_renames {k : Kind} {name : Text} (h : s.renames k name = true) :
    s.assign k name t =
      let (code, t) := t.resolve k name s.codec s.whitelist
      (some code, t.insert k name code) := by
  have hkept : (name.isEmpty || s.whitelist.contains k name) = false := by
    rwa [renames, Bool.not_eq_true'] at h
  rw [assign, hkept]
  rfl

theorem assign_of_not_renames {k : Kind} {name : Text} (h : s.renames k name = false) :
    s.assign k name t = (none, t) := by
  have hkept : (name.isEmpty || s.whitelist.contains k name) = true := by
    rwa [renames, Bool.not_eq_false'] at h
  rw [assign, hkept]
  rfl

/-- **What an operation does**: it leaves the table, puts an entry into it, or mints a code, and a
request puts that code into it under a name that the table does not know. -/
theorem perform_cases (s : Shortener) (t : Table) (op : Operation) :
    (s.mintsFor? t op = none ∧ s.minting? t op = none ∧
      (s.perform t op = t ∨ ∃ k name code, s.perform t op = t.insert k name code)) ∨
    (∃ k, s.mintsFor? t op = some k ∧ s.minting? t op = none ∧
      s.perform t op = (t.mint k s.codec s.whitelist).2) ∨
    ∃ k name, op = .assign k name ∧ s.mintsFor? t op = some k ∧
      s.minting? t op = some ⟨k, name, t.minted k s.codec s.whitelist⟩ ∧ t.find? k name = none ∧
      s.assign k name t = (let (code, t) := t.mint k s.codec s.whitelist
        (some code, t.insert k name code)) := by
  cases op with
  | insert k name code => exact .inl ⟨rfl, rfl, .inr ⟨k, name, code, rfl⟩⟩
  | mint k => exact .inr (.inl ⟨k, rfl, rfl, rfl⟩)
  | resolve k name =>
    cases hknows : t.knows k name with
    | true =>
      refine .inl ⟨by simp [mintsFor?, hknows], rfl, .inl ?_⟩
      exact Table.resolve_of_knows hknows s.codec s.whitelist
    | false =>
      refine .inr (.inl ⟨k, by simp [mintsFor?, hknows], rfl, ?_⟩)
      rw [perform, Table.resolve_of_not_knows hknows]
  | assign k name =>
    cases hname : s.renames k name with
    | false =>
      refine .inl ⟨by simp [mintsFor?, hname], by simp [minting?, mintsFor?, hname], .inl ?_⟩
      rw [perform, assign_of_not_renames hname]
    | true => cases hknows : t.knows k name with
      | true =>
        refine .inl ⟨by simp [mintsFor?, hknows], by simp [minting?, mintsFor?, hknows], .inr ?_⟩
        refine ⟨k, name, (t.resolve k name s.codec s.whitelist).1, ?_⟩
        rw [perform, assign_of_renames hname]
        show (t.resolve k name s.codec s.whitelist).2.insert k name _ = _
        rw [Table.resolve_of_knows hknows]
      | false =>
        refine .inr (.inr ⟨k, name, rfl, by simp [mintsFor?, hname, hknows],
          by simp [minting?, mintsFor?, hname, hknows], (Table.find?_of_not_knows hknows).1, ?_⟩)
        rw [assign_of_renames hname, Table.resolve_of_not_knows hknows]

theorem skipped_perform (op : Operation) :
    (s.perform t op).skipped = t.skipped + (s.passed t op).length := by
  rw [passed]
  obtain ⟨hnone, -, hkept | ⟨k, name, code, hinsert⟩⟩ | ⟨k, hsome, -, hmint⟩ |
    ⟨k, name, rfl, hsome, -, -, hassign⟩ := s.perform_cases t op
  · rw [hnone, hkept]
    rfl
  · rw [hnone, hinsert, Table.skipped_insert]
    rfl
  · rw [hsome, hmint, Table.skipped_mint, List.length_map]
  · rw [hsome, perform, hassign, Table.skipped_insert, Table.skipped_mint, List.length_map]

/-- An operation that mints leaves no counter before that of its code to be looked at. -/
theorem minted_le_perform {op : Operation} {k : Kind} (h : s.mintsFor? t op = some k) :
    t.minted k s.codec s.whitelist ≤ (s.perform t op).counter := by
  obtain ⟨hnone, -⟩ | ⟨k', hsome, -, hmint⟩ | ⟨k', name, rfl, hsome, -, -, hassign⟩ :=
    s.perform_cases t op
  · rw [hnone] at h
    cases h
  · obtain rfl := Option.some.inj (hsome.symm.trans h)
    rw [hmint]
    exact Nat.le_refl _
  · obtain rfl := Option.some.inj (hsome.symm.trans h)
    rw [perform, hassign]
    exact Table.counter_le_insert ..

/-- **The counter never goes back.** -/
theorem counter_le_perform (op : Operation) : t.counter ≤ (s.perform t op).counter := by
  cases hmints : s.mintsFor? t op with
  | some k => exact (t.counter_le_minted k _ _).trans (minted_le_perform hmints)
  | none =>
    obtain ⟨-, -, hkept | ⟨k, name, code, hinsert⟩⟩ | ⟨k, hsome, -⟩ | ⟨k, name, -, hsome, -⟩ :=
      s.perform_cases t op
    · rw [hkept]
    · rw [hinsert]
      exact t.counter_le_insert k name code
    all_goals
      rw [hmints] at hsome
      cases hsome

/-- **A request that mints leaves the counter of its code behind.** -/
theorem counter_lt_perform {op : Operation} {m : Minting} (h : s.minting? t op = some m) :
    t.counter ≤ m.counter ∧ m.counter < (s.perform t op).counter := by
  obtain ⟨-, hnone, -⟩ | ⟨k, -, hnone, -⟩ | ⟨k, name, rfl, -, hsome, hfind, hassign⟩ :=
    s.perform_cases t op
  · rw [hnone] at h
    cases h
  · rw [hnone] at h
    cases h
  · obtain rfl := Option.some.inj (hsome.symm.trans h)
    have hnew : (t.mint k s.codec s.whitelist).2.find? k name = none := by
      rw [Table.mint_eq_minted, Table.find?_skip, hfind]
    rw [perform, hassign, Table.counter_insert _ hnew]
    exact ⟨t.counter_le_minted k _ _, Nat.lt_succ_self _⟩

/-! ### Histories -/

section Collect

variable {α : Type} {f : Table → Operation → List α}

theorem counter_le_performAll (ops : List Operation) :
    t.counter ≤ (s.performAll ops t).counter := by
  induction ops generalizing t with
  | nil => exact Nat.le_refl _
  | cons op rest ih => exact (counter_le_perform op).trans ih

/-- What is read off a history is read off one of its operations. -/
theorem mem_collect {ops : List Operation} {x : α} (h : x ∈ s.collect f ops t) :
    ∃ before op after, ops = before ++ op :: after ∧ x ∈ f (s.performAll before t) op := by
  induction ops generalizing t with
  | nil => cases h
  | cons op rest ih =>
    rcases List.mem_append.mp h with hnow | hlater
    · exact ⟨[], op, rest, rfl, hnow⟩
    · obtain ⟨before, op', after, rfl, hx⟩ := ih hlater
      exact ⟨op :: before, op', after, rfl, hx⟩

/-- **What every operation reads at higher counters, a history does**: each operation reads from the
table's counter on, and leaves behind what it has read. -/
theorem increasing_collect {c : α → Nat}
    (hincreasing : ∀ t op, ((f t op).map c).Pairwise (· < ·))
    (hread : ∀ t op, ∀ x ∈ f t op, t.counter ≤ c x ∧ c x < (s.perform t op).counter)
    (ops : List Operation) (t : Table) :
    ((s.collect f ops t).map c).Pairwise (· < ·) ∧
      ∀ x ∈ s.collect f ops t, t.counter ≤ c x ∧ c x < (s.performAll ops t).counter := by
  induction ops generalizing t with
  | nil => exact ⟨List.Pairwise.nil, by simp [collect]⟩
  | cons op rest ih =>
    obtain ⟨hrest, hlater⟩ := ih (s.perform t op)
    refine ⟨?_, fun x hx => ?_⟩
    · rw [collect, List.map_append, List.pairwise_append]
      refine ⟨hincreasing t op, hrest, fun m hm n hn => ?_⟩
      obtain ⟨x, hx, rfl⟩ := List.mem_map.mp hm
      obtain ⟨y, hy, rfl⟩ := List.mem_map.mp hn
      exact (hread t op x hx).2.trans_le (hlater y hy).1
    · rcases List.mem_append.mp hx with hnow | hlast
      · obtain ⟨hlower, hupper⟩ := hread t op x hnow
        exact ⟨hlower, hupper.trans_le (counter_le_performAll rest)⟩
      · obtain ⟨hlower, hupper⟩ := hlater x hlast
        exact ⟨(counter_le_perform op).trans hlower, hupper⟩

end Collect

/-- The mintings of a history have ever higher counters, and the table's is higher still. -/
theorem increasing_mintings (ops : List Operation) (t : Table) :
    ((s.mintings ops t).map Minting.counter).Pairwise (· < ·) ∧
      ∀ m ∈ s.mintings ops t, t.counter ≤ m.counter ∧ m.counter < (s.performAll ops t).counter :=
  increasing_collect (fun t op => by cases s.minting? t op <;> simp)
    (fun t op m hm => counter_lt_perform (Option.mem_toList.mp hm)) ops t

/-- The counters that a history passes over are ever higher. -/
theorem increasing_passed (ops : List Operation) (t : Table) :
    ((s.collect s.passed ops t).map Prod.snd).Pairwise (· < ·) := by
  refine (increasing_collect (fun t op => ?_) (fun t op x hx => ?_) ops t).1
  · rw [passed]
    split
    · next k _ =>
      have hmap : (Prod.snd ∘ (k, ·) : Nat → Nat) = id := rfl
      rw [List.map_map, hmap, List.map_id]
      exact List.pairwise_lt_range'
    · exact List.Pairwise.nil
  · rw [passed] at hx
    split at hx
    · next k hmints =>
      obtain ⟨n, hn, rfl⟩ := List.mem_map.mp hx
      obtain ⟨hlower, hupper⟩ := Table.mem_passed.mp hn
      exact ⟨hlower, hupper.trans_le (minted_le_perform hmints)⟩
    · cases hx

theorem exempt_of_mem_collect {ops : List Operation} {k : Kind} {n : Nat}
    (h : (k, n) ∈ s.collect s.passed ops t) : s.whitelist.contains k (s.codec.encode n) = true := by
  obtain ⟨before, op, after, -, hx⟩ := mem_collect h
  rw [passed] at hx
  split at hx
  · obtain ⟨n', hn, heq⟩ := List.mem_map.mp hx
    obtain ⟨rfl, rfl⟩ := Prod.mk.inj heq
    exact Table.exempt_of_mem_passed hn
  · cases hx

theorem skipped_performAll (ops : List Operation) :
    (s.performAll ops t).skipped = t.skipped + (s.collect s.passed ops t).length := by
  induction ops generalizing t with
  | nil => rfl
  | cons op rest ih =>
    show (s.performAll rest (s.perform t op)).skipped = _
    rw [ih, skipped_perform, collect, List.length_append, Nat.add_assoc]

/-- The requests for codes of names in turn. -/
def requests (mentions : List Mention) : List Operation := mentions.map fun m => .assign m.1 m.2

theorem performAll_requests (mentions : List Mention) (t : Table) :
    s.performAll (requests mentions) t = s.assignAll mentions t := by
  rw [performAll, requests, List.foldl_map]
  rfl

/-- A minting of a run is the answer to one of its requests. -/
theorem exists_minting {mentions : List Mention} {m : Minting}
    (h : m ∈ s.mintings (requests mentions) t) :
    ∃ before after, mentions = before ++ (m.kind, m.name) :: after ∧
      m.counter = (s.assignAll before t).minted m.kind s.codec s.whitelist ∧
      (s.assign m.kind m.name (s.assignAll before t)).1 = some (s.codec.encode m.counter) := by
  obtain ⟨before, op, after, hsplit, hm⟩ := mem_collect h
  have hm := Option.mem_toList.mp hm
  obtain ⟨-, hnone, -⟩ | ⟨k, -, hnone, -⟩ | ⟨k, name, rfl, -, hsome, -, hassign⟩ :=
    s.perform_cases (s.performAll before t) op
  · rw [hnone] at hm
    cases hm
  · rw [hnone] at hm
    cases hm
  · obtain rfl := Option.some.inj (hsome.symm.trans hm)
    obtain ⟨ms, ns, rfl, rfl, hns⟩ := List.map_eq_append_iff.mp hsplit
    obtain ⟨⟨k', name'⟩, ns, rfl, hop, rfl⟩ := List.map_eq_cons_iff.mp hns
    obtain ⟨rfl, rfl⟩ := Operation.assign.inj hop
    rw [← requests, performAll_requests] at *
    refine ⟨ms, ns, rfl, rfl, ?_⟩
    rw [hassign, Table.mint_eq_minted]

/-- **Minted codes never repeat.** The counters that a run of requests mints from increase from one
to the next, so no two codes are the same; each is what the table has for its name in the end, and
is not exempt. -/
theorem mintings_increase (settings : Settings) (mentions : List Mention) (start : Table) :
    let s := ofSettings settings
    let mintings := s.mintings (requests mentions) start
    (mintings.map Minting.counter).Pairwise (· < ·) ∧
      (mintings.map fun m => s.codec.encode m.counter).Nodup ∧
      ∀ m ∈ mintings,
        (s.assignAll mentions start).find? m.kind m.name = some (s.codec.encode m.counter) ∧
          s.whitelist.contains m.kind (s.codec.encode m.counter) = false := by
  intro s mintings
  have hc : s.codec.Distinct := Codec.distinct_ofSalt settings.salt
  have hincreasing := (s.increasing_mintings (requests mentions) start).1
  refine ⟨hincreasing, ?_, fun m hm => ?_⟩
  · have hcounters : (mintings.map Minting.counter).Nodup := hincreasing.imp Nat.ne_of_lt
    have hcodes := hcounters.map (f := s.codec.encode) fun m n h => Codec.encode_injective hc h
    rwa [List.map_map] at hcodes
  · obtain ⟨before, after, rfl, hcounter, hanswer⟩ := exists_minting hm
    rw [assign_eq_lookup_assignAll m.kind m.name before after, lookup] at hanswer
    refine ⟨?_, by rw [hcounter]; exact Table.minted_free hc⟩
    split at hanswer
    · exact hanswer
    · cases hanswer

/-- **A minted code is fresh exactly if no other code is in its way**: whatever has been done to a
table, the next code of a kind is that of no entry with a code that a request minted. Only a code of
the caller's own, or one that a name took from a name within it, can be the same. -/
theorem mint_fresh_iff (settings : Settings) (ops : List Operation) (k : Kind) :
    let s := ofSettings settings
    let t := s.performAll ops .empty
    let code := (t.mint k s.codec s.whitelist).1
    (∀ name, t.find? k name ≠ some code) ↔
      ∀ name taken, t.find? k name = some taken →
        taken ∉ (s.mintings ops .empty).map (fun m => s.codec.encode m.counter) → taken ≠ code := by
  intro s t code
  have hc : s.codec.Distinct := Codec.distinct_ofSalt settings.salt
  constructor
  · rintro hfresh name taken hfind - rfl
    exact hfresh name hfind
  · intro hother name hfind
    refine hother name code hfind ?_ rfl
    intro hmem
    obtain ⟨m, hm, hcode⟩ := List.mem_map.mp hmem
    have hlt : m.counter < t.counter := ((s.increasing_mintings ops .empty).2 m hm).2
    have hle : t.counter ≤ t.minted k s.codec s.whitelist := t.counter_le_minted k _ _
    have hminted : code = s.codec.encode (t.minted k s.codec s.whitelist) :=
      congrArg Prod.fst (t.mint_eq_minted k _ _)
    have heq := Codec.encode_injective hc (hcode.trans hminted)
    omega

/-- The caller gives a name the code `b`, which is the code of the second counter. -/
theorem mint_taken_by_insert :
    let s := ofSettings { salt := [] }
    let t := s.performAll [.insert .className ['y'] ['b']] .empty
    let code := (t.mint .className s.codec s.whitelist).1
    ¬ ∀ name, t.find? .className name ≠ some code := by
  intro s t code hfresh
  exact hfresh ['y'] (by decide +kernel)

/-- **The search for a code ends, and no exempt name is passed over twice.** Whatever has been done
to a table, a search that nothing bounds ends, on what minting returns; the exempt names passed over
are different entries of the whitelist, and the table counts them. -/
theorem passedOver_bounded (settings : Settings) (ops : List Operation) :
    let s := ofSettings settings
    let t := s.performAll ops .empty
    let names := s.passedOver ops .empty
    (∀ k result, Table.Mints k s.codec s.whitelist t result ↔
        result = t.mint k s.codec s.whitelist) ∧
      names.Nodup ∧ (∀ name ∈ names, name ∈ s.whitelist.entries) ∧ t.skipped = names.length ∧
      t.skipped ≤ s.whitelist.size := by
  intro s t names
  have hc : s.codec.Distinct := Codec.distinct_ofSalt settings.salt
  have hnodup : names.Nodup := by
    have hincreasing := s.increasing_passed ops .empty
    refine List.Pairwise.map _ (fun x y hne heq => ?_) (List.pairwise_map.mp hincreasing)
    have := Codec.encode_injective hc (List.tail_eq_of_cons_eq heq)
    omega
  have hsubset : ∀ name ∈ names, name ∈ s.whitelist.entries := by
    intro name hname
    obtain ⟨⟨k, n⟩, hmem, rfl⟩ := List.mem_map.mp hname
    exact (s.whitelist.contains_iff k _).mp (exempt_of_mem_collect hmem)
  have hskipped : t.skipped = names.length := by
    have hcount : names.length = (s.collect s.passed ops .empty).length := List.length_map _
    rw [hcount, skipped_performAll]
    exact Nat.zero_add _
  refine ⟨fun k result => Table.mints_iff hc, hnodup, hsubset, hskipped, ?_⟩
  rw [hskipped]
  exact (List.subperm_of_subset hnodup hsubset).length_le

end Shortener
end TerseMarkup

import Brainfuck.Toml.Document

/-!
# Whole numbers in TOML documents

No document has a whole number of more than 64 bits (`fit_of_parse?`): numbers are checked when they are read,
and a document is built of what has been read.  So each reader yields values that fit (`Yields`), and each
change of a table keeps its entries fit (`Entries.Fit`).
-/

namespace Brainfuck.Toml

/-- All whole numbers in a value have 64 bits, with the sign. -/
inductive Node.Fits : Node → Prop
  | string (s : String) : Fits (.string s)
  | integer {i : Int} (low : -0x8000000000000000 ≤ i) (high : i < 0x8000000000000000) : Fits (.integer i)
  | float (x : Decimal.Binary64) : Fits (.float x)
  | boolean (b : Bool) : Fits (.boolean b)
  | moment : Fits .moment
  | array {items : List Node} (h : ∀ item ∈ items, Fits item) : Fits (.array items)
  | table {origin : Origin} {entries : Entries} (h : ∀ entry ∈ entries, Fits entry.2) :
      Fits (.table origin entries)
  | tables {items : List Node} (h : ∀ item ∈ items, Fits item) : Fits (.tables items)

def Entries.Fit (entries : Entries) : Prop := ∀ entry ∈ entries, entry.2.Fits

theorem Entries.fit_nil : Entries.Fit [] := List.forall_mem_nil _

theorem Node.Fits.entries {origin : Origin} {entries : Entries} (h : (Node.table origin entries).Fits) :
    entries.Fit := by
  cases h with
  | table hentries => exact hentries

theorem Node.Fits.items {items : List Node} (h : (Node.tables items).Fits) :
    ∀ item ∈ items, item.Fits := by
  cases h with
  | tables hitems => exact hitems

/-- Whatever is read has the property. -/
def Yields {α : Type} (P : α → Prop) (r : Reader α) : Prop :=
  ∀ ⦃cs v rest⦄, r cs = some (v, rest) → P v

/-- What is said about the text behind a value leaves the value alone. -/
theorem eq_of_map_mk {α : Type} {a b : α} {left : Option (List Char)} {rest : List Char}
    (h : left.map (a, ·) = some (b, rest)) : b = a := by
  obtain ⟨cs, -, heq⟩ := Option.map_eq_some_iff.1 h
  exact (congrArg Prod.fst heq).symm

/-! ## Numbers -/

theorem fits_of_bounded {i : Int} {node : Node} (h : bounded i = some node) : node.Fits := by
  obtain ⟨hi, hnode⟩ := Option.ite_none_right_eq_some.1 h
  cases hnode
  exact .integer hi.1 hi.2

theorem fits_of_map_bounded {i : Int} {rest rest' : List Char} {node : Node}
    (h : (bounded i).map (·, rest) = some (node, rest')) : node.Fits := by
  obtain ⟨bound, hbound, heq⟩ := Option.map_eq_some_iff.1 h
  cases heq
  exact fits_of_bounded hbound

theorem yields_prefixed (base : Nat) (digit : Char → Option Nat) :
    Yields Node.Fits (prefixed base digit) := by
  intro cs node rest h
  obtain ⟨⟨⟨count, n⟩, left⟩, -, hnode⟩ := Option.bind_eq_some_iff.1 h
  exact fits_of_map_bounded hnode

theorem yields_integer : Yields Node.Fits integer := by
  intro cs node rest h
  unfold integer at h
  split at h
  · exact yields_prefixed _ _ h
  · exact yields_prefixed _ _ h
  · exact yields_prefixed _ _ h
  · obtain ⟨⟨n, left⟩, -, hnode⟩ := Option.bind_eq_some_iff.1 h
    exact fits_of_map_bounded hnode

theorem yields_moment : Yields Node.Fits moment := by
  intro cs node rest h
  rw [eq_of_map_mk h]
  exact .moment

theorem yields_decimal (negative : Bool) : Yields Node.Fits (decimal negative) := by
  intro cs node rest h
  obtain ⟨⟨n, left⟩, -, h⟩ := Option.bind_eq_some_iff.1 h
  dsimp only at h
  split at h
  · -- with places behind the point
    split at h
    · cases h
    · cases h
    · split at h <;> cases h
      exact .float _
    · split at h <;> cases h
      exact .float _
  · obtain ⟨⟨power, left⟩, -, h⟩ := Option.bind_eq_some_iff.1 h
    dsimp only at h
    split at h <;> cases h
    exact .float _

theorem yields_float : Yields Node.Fits float := by
  intro cs node rest h
  unfold float at h
  dsimp only at h
  split at h
  · cases h
    exact .float _
  · cases h
    exact .float _
  · exact yields_decimal _ h

theorem yields_scalar : Yields Node.Fits scalar := by
  intro cs node rest h
  unfold scalar at h
  split at h
  · cases h; exact .boolean true
  · cases h; exact .boolean false
  · obtain ⟨⟨s, left⟩, -, heq⟩ := Option.map_eq_some_iff.1 h
    cases heq
    exact .string s
  · obtain ⟨⟨s, left⟩, -, heq⟩ := Option.map_eq_some_iff.1 h
    cases heq
    exact .string s
  · split at h
    · next hmoment =>
      cases h
      exact yields_moment hmoment
    · split at h
      · next hfloat =>
        cases h
        exact yields_float hfloat
      · exact yields_integer h

/-! ## Tables -/

/-- A function that makes values only of those that fit keeps entries that fit. -/
theorem fit_change {name : String} {f : Option Node → Option Node} {entries result : Entries}
    (hf : ∀ old new, f old = some new → (∀ node, old = some node → node.Fits) → new.Fits)
    (h : change name f entries = some result) (hfit : entries.Fit) : result.Fit := by
  induction entries generalizing result with
  | nil =>
    obtain ⟨new, hnew, rfl⟩ := Option.map_eq_some_iff.1 h
    exact List.forall_mem_singleton.2 (hf none new hnew fun node hnode => by cases hnode)
  | cons head entries ih =>
    obtain ⟨other, node⟩ := head
    obtain ⟨hnode, hrest⟩ := List.forall_mem_cons.1 hfit
    unfold change at h
    split at h
    · obtain ⟨new, hnew, rfl⟩ := Option.map_eq_some_iff.1 h
      refine List.forall_mem_cons.2 ⟨hf (some node) new hnew ?_, hrest⟩
      rintro old ⟨⟩
      exact hnode
    · obtain ⟨changed, hchanged, rfl⟩ := Option.map_eq_some_iff.1 h
      exact List.forall_mem_cons.2 ⟨hnode, ih hchanged hrest⟩

theorem fits_of_map_table {origin : Origin} {changed : Option Entries} {node : Node}
    (h : changed.map (.table origin) = some node)
    (hfit : ∀ entries, changed = some entries → entries.Fit) : node.Fits := by
  obtain ⟨entries, hentries, rfl⟩ := Option.map_eq_some_iff.1 h
  exact .table (hfit entries hentries)

theorem fits_changeLast {f : Origin → Entries → Option Node} {items : List Node} {node : Node}
    (hf : ∀ origin entries new, f origin entries = some new → entries.Fit → new.Fits)
    (h : changeLast f items = some node) (hitems : ∀ item ∈ items, item.Fits) : node.Fits := by
  unfold changeLast at h
  split at h
  · next origin entries hlast =>
    obtain ⟨last, hchanged, rfl⟩ := Option.map_eq_some_iff.1 h
    refine .tables (List.forall_mem_append.2 ⟨fun item hitem => ?_, List.forall_mem_singleton.2 ?_⟩)
    · exact hitems item (List.dropLast_subset items hitem)
    · exact hf origin entries _ hchanged (hitems _ (List.mem_of_getLast? hlast)).entries
  · cases h

theorem fit_insert {last : String} {value : Node} (hvalue : value.Fits) {path : List String} {isOpen : Bool}
    {entries result : Entries} (h : insert last value path isOpen entries = some result)
    (hfit : entries.Fit) : result.Fit := by
  induction path generalizing isOpen entries result with
  | nil =>
    unfold insert at h
    split at h
    · refine fit_change (fun old new hnew _ => ?_) h hfit
      cases old with
      | none =>
        cases hnew
        exact hvalue
      | some old => cases hnew
    · cases h
  | cons name path ih =>
    unfold insert at h
    refine fit_change (fun old new hnew hold => ?_) h hfit
    split at hnew
    · exact fits_of_map_table hnew fun inner hinner => ih hinner Entries.fit_nil
    · exact fits_of_map_table hnew fun inner hinner => ih hinner (hold _ rfl).entries
    · exact fits_of_map_table hnew fun inner hinner => ih hinner (hold _ rfl).entries
    · refine fits_changeLast (fun origin held new hnew hheld => ?_) hnew (hold _ rfl).items
      exact fits_of_map_table hnew fun inner hinner => ih hinner hheld
    · cases hnew

theorem fit_insertAll {pairs : List Pair} (hpairs : ∀ p ∈ pairs, p.value.Fits) {entries result : Entries}
    (h : insertAll pairs entries = some result) (hfit : entries.Fit) : result.Fit := by
  induction pairs generalizing entries with
  | nil =>
    cases h
    exact hfit
  | cons p pairs ih =>
    obtain ⟨hp, hpairs⟩ := List.forall_mem_cons.1 hpairs
    rw [insertAll, List.foldlM_cons] at h
    obtain ⟨entries', hinsert, h⟩ := Option.bind_eq_some_iff.1 h
    exact ih hpairs h (fit_insert hp hinsert hfit)

/-- What keeps entries that fit keeps them inside other tables as well. -/
theorem fit_within {f : Entries → Option Entries}
    (hf : ∀ entries result, f entries = some result → entries.Fit → result.Fit) {path : List String}
    {entries result : Entries} (h : within f path entries = some result) (hfit : entries.Fit) :
    result.Fit := by
  induction path generalizing entries result with
  | nil => exact hf entries result h hfit
  | cons name path ih =>
    unfold within at h
    refine fit_change (fun old new hnew hold => ?_) h hfit
    split at hnew
    · exact fits_of_map_table hnew fun inner hinner => ih hinner Entries.fit_nil
    · cases hnew
    · exact fits_of_map_table hnew fun inner hinner => ih hinner (hold _ rfl).entries
    · refine fits_changeLast (fun origin held new hnew hheld => ?_) hnew (hold _ rfl).items
      exact fits_of_map_table hnew fun inner hinner => ih hinner hheld
    · cases hnew

theorem fit_declare {last : String} {pairs : List Pair} (hpairs : ∀ p ∈ pairs, p.value.Fits)
    {entries result : Entries} (h : declare last pairs entries = some result) (hfit : entries.Fit) :
    result.Fit := by
  have hopened : ∀ held : Entries, held.Fit → (insertAll pairs held).map (fun inner =>
      entries.filter (·.1 ≠ last) ++ [(last, .table .declared inner)]) = some result → result.Fit := by
    intro held hheld h
    obtain ⟨inner, hinner, rfl⟩ := Option.map_eq_some_iff.1 h
    refine List.forall_mem_append.2 ⟨fun entry hentry => ?_, List.forall_mem_singleton.2 ?_⟩
    · exact hfit entry (List.mem_filter.1 hentry).1
    · exact .table (fit_insertAll hpairs hinner hheld)
  unfold declare at h
  dsimp only at h
  split at h
  · exact hopened [] Entries.fit_nil h
  · next held hlookup =>
    obtain ⟨before, behind, rfl, -⟩ := List.lookup_eq_some_iff.1 hlookup
    have hheld : (Node.table .implied held).Fits := hfit (last, _) (by simp)
    exact hopened held hheld.entries h
  · cases h

theorem fit_declareNext {last : String} {pairs : List Pair} (hpairs : ∀ p ∈ pairs, p.value.Fits)
    {entries result : Entries} (h : declareNext last pairs entries = some result) (hfit : entries.Fit) :
    result.Fit := by
  obtain ⟨inner, hinner, h⟩ := Option.bind_eq_some_iff.1 h
  have htable : (Node.table .declared inner).Fits :=
    .table (fit_insertAll hpairs hinner Entries.fit_nil)
  refine fit_change (fun old new hnew hold => ?_) h hfit
  split at hnew
  · cases hnew
    exact .tables (List.forall_mem_singleton.2 htable)
  · cases hnew
    exact .tables (List.forall_mem_append.2 ⟨(hold _ rfl).items, List.forall_mem_singleton.2 htable⟩)
  · cases hnew

/-! ## Values -/

theorem yields_items {item : Reader Node} (hitem : Yields Node.Fits item) {fuel : Nat} {done : List Node}
    (hdone : ∀ node ∈ done, node.Fits) :
    Yields (fun nodes => ∀ node ∈ nodes, Node.Fits node) (items item fuel done) := by
  intro cs nodes rest h
  induction fuel generalizing done cs with
  | zero => cases h
  | succ fuel ih =>
    unfold items at h
    split at h
    · cases h
      exact fun node hnode => hdone node (List.mem_reverse.1 hnode)
    · obtain ⟨⟨v, left⟩, hv, h⟩ := Option.bind_eq_some_iff.1 h
      have hmore : ∀ node ∈ v :: done, node.Fits := List.forall_mem_cons.2 ⟨hitem hv, hdone⟩
      dsimp only at h
      split at h
      · exact ih hmore h
      · cases h
        exact fun node hnode => hmore node (List.mem_reverse.1 hnode)
      · cases h

theorem yields_pair {item : Reader Node} (hitem : Yields Node.Fits item) :
    Yields (fun p => p.value.Fits) (pair item) := by
  intro cs p rest h
  obtain ⟨⟨⟨path, last⟩, left⟩, -, h⟩ := Option.bind_eq_some_iff.1 h
  dsimp only at h
  split at h
  · obtain ⟨⟨v, left⟩, hv, heq⟩ := Option.map_eq_some_iff.1 h
    cases heq
    exact hitem hv
  · cases h

theorem yields_pairs {item : Reader Node} (hitem : Yields Node.Fits item) {fuel : Nat} {done : List Pair}
    (hdone : ∀ p ∈ done, p.value.Fits) :
    Yields (fun ps => ∀ p ∈ ps, p.value.Fits) (pairs item fuel done) := by
  intro cs ps rest h
  induction fuel generalizing done cs with
  | zero => cases h
  | succ fuel ih =>
    obtain ⟨⟨p, left⟩, hp, h⟩ := Option.bind_eq_some_iff.1 h
    have hmore : ∀ p' ∈ p :: done, p'.value.Fits :=
      List.forall_mem_cons.2 ⟨yields_pair hitem hp, hdone⟩
    dsimp only at h
    split at h
    · exact ih hmore h
    · cases h
      exact fun p' hp' => hmore p' (List.mem_reverse.1 hp')
    · cases h

theorem yields_inlineTable {item : Reader Node} (hitem : Yields Node.Fits item) :
    Yields Node.Fits (inlineTable item) := by
  intro cs node rest h
  unfold inlineTable at h
  split at h
  · cases h
    exact .table Entries.fit_nil
  · obtain ⟨⟨ps, left⟩, hps, h⟩ := Option.bind_eq_some_iff.1 h
    obtain ⟨entries, hentries, heq⟩ := Option.map_eq_some_iff.1 h
    cases heq
    have hpairs := yields_pairs hitem (List.forall_mem_nil _) hps
    exact .table (fit_insertAll hpairs hentries Entries.fit_nil)

theorem yields_value (depth : Nat) : Yields Node.Fits (value depth) := by
  induction depth with
  | zero => exact yields_scalar
  | succ depth ih =>
    intro cs node rest h
    unfold value at h
    split at h
    · obtain ⟨⟨vs, left⟩, hvs, heq⟩ := Option.map_eq_some_iff.1 h
      cases heq
      exact .array (yields_items ih (List.forall_mem_nil _) hvs)
    · exact yields_inlineTable ih h
    · exact yields_scalar h

/-! ## Documents -/

def Statement.Fits : Statement → Prop
  | .pair p => p.value.Fits
  | .table _ _ => True
  | .nextTable _ _ => True

theorem fits_of_statement {cs rest : List Char} {s : Statement} (h : statement cs = some (s, rest)) :
    s.Fits := by
  unfold statement at h
  split at h
  · obtain ⟨⟨⟨path, last⟩, left⟩, -, h⟩ := Option.bind_eq_some_iff.1 h
    dsimp only at h
    split at h
    · rw [eq_of_map_mk h]
      trivial
    · cases h
  · obtain ⟨⟨⟨path, last⟩, left⟩, -, h⟩ := Option.bind_eq_some_iff.1 h
    dsimp only at h
    split at h
    · rw [eq_of_map_mk h]
      trivial
    · cases h
  · obtain ⟨⟨p, left⟩, hp, h⟩ := Option.bind_eq_some_iff.1 h
    rw [eq_of_map_mk h]
    exact yields_pair (yields_value _) hp

theorem fits_of_statements {fuel : Nat} {done ss : List Statement} {cs : List Char}
    (hdone : ∀ s ∈ done, s.Fits) (h : statements fuel done cs = some ss) : ∀ s ∈ ss, s.Fits := by
  induction fuel generalizing done cs with
  | zero => cases h
  | succ fuel ih =>
    unfold statements at h
    split at h
    · cases h
      exact fun s hs => hdone s (List.mem_reverse.1 hs)
    · split at h
      · exact ih hdone h
      · obtain ⟨⟨s, left⟩, hs, h⟩ := Option.bind_eq_some_iff.1 h
        exact ih (List.forall_mem_cons.2 ⟨fits_of_statement hs, hdone⟩) h

theorem fits_of_leading {ss : List Statement} (h : ∀ s ∈ ss, s.Fits) :
    (∀ p ∈ (leading ss).1, p.value.Fits) ∧ ∀ s ∈ (leading ss).2, s.Fits := by
  induction ss with
  | nil => exact ⟨List.forall_mem_nil _, List.forall_mem_nil _⟩
  | cons s ss ih =>
    obtain ⟨hs, hss⟩ := List.forall_mem_cons.1 h
    cases s with
    | pair p => exact ⟨List.forall_mem_cons.2 ⟨hs, (ih hss).1⟩, (ih hss).2⟩
    | table path last => exact ⟨List.forall_mem_nil _, h⟩
    | nextTable path last => exact ⟨List.forall_mem_nil _, h⟩

theorem fit_sections {fuel : Nat} {ss : List Statement} (hss : ∀ s ∈ ss, s.Fits)
    {entries result : Entries} (h : sections fuel ss entries = some result) (hfit : entries.Fit) :
    result.Fit := by
  induction fuel generalizing ss entries with
  | zero =>
    cases ss with
    | nil =>
      cases h
      exact hfit
    | cons s ss => cases s <;> cases h
  | succ fuel ih =>
    cases ss with
    | nil =>
      cases h
      exact hfit
    | cons s ss =>
      obtain ⟨hpairs, hrest⟩ := fits_of_leading (List.forall_mem_cons.1 hss).2
      cases s with
      | pair p => cases h
      | table path last =>
        obtain ⟨entries', hwithin, h⟩ := Option.bind_eq_some_iff.1 h
        exact ih hrest h (fit_within (fun _ _ => fit_declare hpairs) hwithin hfit)
      | nextTable path last =>
        obtain ⟨entries', hwithin, h⟩ := Option.bind_eq_some_iff.1 h
        exact ih hrest h (fit_within (fun _ _ => fit_declareNext hpairs) hwithin hfit)

/-- All whole numbers in a document have 64 bits. -/
theorem fit_of_parse? {text : String} {entries : Entries} (h : parse? text = some entries) :
    entries.Fit := by
  obtain ⟨ss, hss, h⟩ := Option.bind_eq_some_iff.1 h
  obtain ⟨hpairs, hrest⟩ := fits_of_leading (fits_of_statements (List.forall_mem_nil _) hss)
  obtain ⟨entries', hroot, h⟩ := Option.bind_eq_some_iff.1 h
  exact fit_sections hrest h (fit_insertAll hpairs hroot Entries.fit_nil)

end Brainfuck.Toml

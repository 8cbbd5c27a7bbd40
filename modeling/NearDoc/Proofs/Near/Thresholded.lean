import NearDoc.Proofs.Near.Mismatch
import NearDoc.Session

/-!
Rankings with a threshold. A ranking may leave out what is beyond a threshold, or it may go over what
a filter lets through, which pulls a document only when the ranking asks for one. Main statement:
both find the same documents, pull the same ones and fail alike, and a search tells of each document
found with its distance.
-/

namespace NearDoc

open scoped List

/-! ### Items made on demand -/

/-- Items that are made on demand: what their making has come to when so many are asked for. Nothing
is pulled unless items are asked for. -/
@[ext] structure Supply (α : Type) where
  asked : Option Nat → Pass (Found α)
  idle : (asked (some 0)).pulled = 0

namespace Supply

variable {α : Type}

/-- The items of a list. -/
def ofList (items : List α) : Supply α where
  asked wanted := ⟨wanted.elim items.length (min items.length),
    wanted.elim items items.take, none⟩
  idle := by simp

/-- Nothing but a failure over the first thing pulled. -/
def failing (e : Error) : Supply α where
  asked
    | some 0 => ⟨0, [], none⟩
    | _ => ⟨1, [], some e⟩
  idle := rfl

/-- One thing is pulled before any item is made. -/
def delayed (source : Supply α) : Supply α where
  asked
    | some 0 => ⟨0, [], none⟩
    | wanted => ⟨(source.asked wanted).pulled + 1, (source.asked wanted).outcome⟩
  idle := rfl

/-- One thing is pulled and is the first item. -/
def cons (item : α) (source : Supply α) : Supply α where
  asked
    | some 0 => ⟨0, [], none⟩
    | wanted =>
      let rest := source.asked (wanted.map (· - 1))
      ⟨rest.pulled + 1, item :: rest.outcome.items, rest.outcome.failure⟩
  idle := rfl

end Supply

namespace Selector

variable {α : Type} {key : α → Except Error Value} {s s' : Selector α} {source : Supply α}
variable {items : List α} {item : α} {v : Value} {e : Error} {kept : Bool}

/-- Offers items as they are made. Where an offer fails, no further item is asked for. -/
def offerFrom (key : α → Except Error Value) (s : Selector α) (source : Supply α) :
    Pass (Except Error (Selector α)) :=
  let all := source.asked none
  let offered := s.offerAll key all.outcome.items
  match offered.outcome with
  | .error e => ⟨(source.asked (some offered.pulled)).pulled, .error e⟩
  | .ok s => ⟨all.pulled, all.outcome.failure.elim (.ok s) .error⟩

/-- The items with the smallest keys, of those that are made on demand. -/
def selectFrom (key : α → Except Error Value) (room : Room) (source : Supply α) :
    Pass (Except Error (List (Value × α))) :=
  if room.isNone then ⟨0, .ok []⟩
  else
    let pass := offerFrom key (.empty room) source
    ⟨pass.pulled, pass.outcome.bind fun s => s.drain.2⟩

/-- A pass over so many items goes over all of them, unless it fails at one. -/
def Spans (n : Nat) : Pass (Except Error (Selector α)) → Prop
  | ⟨pulled, .error _⟩ => 0 < pulled ∧ pulled ≤ n
  | ⟨pulled, .ok _⟩ => pulled = n

lemma Spans.succ {n : Nat} {pass : Pass (Except Error (Selector α))} (h : Spans n pass) :
    Spans (n + 1) ⟨pass.pulled + 1, pass.outcome⟩ := by
  rcases pass with ⟨pulled, e | s⟩
  · exact ⟨Nat.succ_pos _, Nat.succ_le_succ h.2⟩
  · exact congrArg (· + 1) h

lemma spans_offerAll (key : α → Except Error Value) (s : Selector α) (items : List α) :
    Spans items.length (s.offerAll key items) := by
  have hfirst (n : Nat) (e : Error) : Spans (α := α) (n + 1) ⟨1, .error e⟩ :=
    ⟨Nat.one_pos, Nat.succ_le_succ (Nat.zero_le _)⟩
  induction items generalizing s with
  | nil => rfl
  | cons item items ih =>
    unfold offerAll
    split
    · exact hfirst ..
    · exact (ih s).succ
    · split
      · exact hfirst ..
      · exact (ih _).succ

/-- What becomes of a first item whose key is defined. -/
lemma offerAll_cons (hkey : key item = .ok v) (hv : v ≠ .undefined) (items : List α) :
    s.offerAll key (item :: items) =
      match s.offer v item with
      | (_, .error e) => ⟨1, .error e⟩
      | (s', .ok _) => ⟨(s'.offerAll key items).pulled + 1, (s'.offerAll key items).outcome⟩ := by
  rw [offerAll]
  split
  · rename_i e he
    cases he.symm.trans hkey
  · rename_i hundefined
    cases hundefined.symm.trans hkey
    exact absurd rfl hv
  · rename_i k _ hk
    obtain rfl : k = v := Except.ok.inj (hk.symm.trans hkey)
    rfl

/-- The items of a list are offered as those made on demand. -/
theorem offerFrom_ofList (key : α → Except Error Value) (s : Selector α) (items : List α) :
    s.offerFrom key (.ofList items) = s.offerAll key items := by
  have hspans := spans_offerAll key s items
  rcases hpass : s.offerAll key items with ⟨pulled, e | s'⟩ <;> rw [hpass] at hspans
  · simp [offerFrom, Supply.ofList, hpass, hspans.2]
  · obtain rfl : pulled = items.length := hspans
    simp [offerFrom, Supply.ofList, hpass]

lemma offerFrom_failing (key : α → Except Error Value) (s : Selector α) (e : Error) :
    s.offerFrom key (.failing e) = ⟨1, .error e⟩ := rfl

lemma offerFrom_delayed (key : α → Except Error Value) (s : Selector α) (source : Supply α) :
    s.offerFrom key source.delayed =
      ⟨(s.offerFrom key source).pulled + 1, (s.offerFrom key source).outcome⟩ := by
  have hspans := spans_offerAll key s (source.asked none).outcome.items
  rcases hpass : s.offerAll key (source.asked none).outcome.items with ⟨pulled, e | s'⟩
  · rw [hpass] at hspans
    obtain ⟨n, rfl⟩ := Nat.exists_eq_succ_of_ne_zero hspans.1.ne'
    simp only [offerFrom, Supply.delayed, hpass]
  · simp only [offerFrom, Supply.delayed, hpass]

lemma offerFrom_cons (hkey : key item = .ok v) (hv : v ≠ .undefined) (s : Selector α)
    (source : Supply α) :
    s.offerFrom key (source.cons item) =
      match s.offer v item with
      | (_, .error e) => ⟨1, .error e⟩
      | (s', .ok _) =>
        ⟨(s'.offerFrom key source).pulled + 1, (s'.offerFrom key source).outcome⟩ := by
  have hitems : ((source.cons item).asked none).outcome.items =
      item :: (source.asked none).outcome.items := rfl
  have hoffers := offerAll_cons (s := s) hkey hv (source.asked none).outcome.items
  unfold offerFrom
  dsimp only
  rw [hitems, hoffers]
  rcases s.offer v item with ⟨s', e | kept⟩
  · simp [Supply.cons, source.idle]
  · dsimp only
    rcases hpass : s'.offerAll key (source.asked none).outcome.items with ⟨pulled, e | s''⟩ <;> rfl

end Selector

/-! ### Thresholds -/

namespace DistanceKey

variable {key : DistanceKey} {d most v : Value} {ds : List Value} {n : Number}

/-- No distance that the metric gives is NaN. -/
def Placed (key : DistanceKey) : Prop :=
  ∀ stored x, key.metric.distance stored key.target = .ok x → (Number.real x).HasPlace

lemma Measures.placed (h : key.Measures) : key.Placed := by
  intro stored x hx
  unfold Metric.distance at hx
  split at hx
  · rename_i hdim
    obtain ⟨y, p, hy, hp⟩ := h stored hdim
    rw [Metric.distance, if_pos hdim] at hy
    obtain rfl : y = x := Except.ok.inj (hy.symm.trans hx)
    exact ⟨p, hp⟩
  · cases hx

/-- The documents within a distance, found as they are asked for. -/
def supply (key : DistanceKey) (most : Value) (ds : List Value) : Supply Value where
  asked wanted := key.within most wanted ds
  idle := by rw [within]

lemma exists_distance (h : key.ofDocument d = .ok v) (hv : v ≠ .undefined) :
    ∃ stored x, v = .real x ∧ key.metric.distance stored key.target = .ok x := by
  obtain ⟨stored?, -, h⟩ := bind_eq_ok.mp h
  rcases stored? with _ | stored
  · cases h
    exact absurd rfl hv
  · obtain ⟨x, hx, h⟩ := bind_eq_ok.mp h
    cases h
    exact ⟨stored, x, rfl, hx⟩

/-- A first document is refused, passed over or found as its distance up to the threshold says. -/
lemma supply_cons (hmost : most.numeral? = some n) (hn : n.HasPlace) (hplaced : key.Placed)
    (d : Value) (ds : List Value) :
    (∃ e, key.upTo most d = .error e ∧ key.supply most (d :: ds) = .failing e) ∨
    (key.upTo most d = .ok .undefined ∧
      key.supply most (d :: ds) = (key.supply most ds).delayed) ∨
    ∃ x, key.upTo most d = .ok (.real x) ∧ key.ofDocument d = .ok (.real x) ∧
      key.supply most (d :: ds) = (key.supply most ds).cons d := by
  rcases hd : key.ofDocument d with e | v
  · refine .inl ⟨e, by rw [upTo, hd]; rfl, ?_⟩
    refine Supply.ext (funext fun wanted => ?_)
    rcases wanted with _ | _ | w <;> simp only [supply, Supply.failing, within, hd]
  · by_cases hv : v = .undefined
    · subst hv
      refine .inr (.inl ⟨by rw [upTo, hd]; rfl, ?_⟩)
      refine Supply.ext (funext fun wanted => ?_)
      rcases wanted with _ | _ | w <;> simp only [supply, Supply.delayed, within, hd]
    · obtain ⟨stored, x, rfl, hx⟩ := exists_distance hd hv
      obtain ⟨a, b, hrelate, hplaces⟩ := Value.exists_relate_numeral hmost x
      obtain ⟨ha, hb⟩ := hplaces (hplaced stored x hx) hn
      have hread := upTo_of_distance hd (hrelate .gt)
      have hle := hrelate .le
      rw [OrderRelation.ofNumbers_le ha hb] at hle
      rcases hgt : OrderRelation.gt.ofNumbers a b with _ | _ <;> rw [hgt] at hread hle
      · refine .inr (.inr ⟨x, hread, rfl, ?_⟩)
        refine Supply.ext (funext fun wanted => ?_)
        rcases wanted with _ | _ | w <;>
        simp only [supply, Supply.cons, within, hd, hle, Bool.not_false]
      · refine .inr (.inl ⟨hread, ?_⟩)
        refine Supply.ext (funext fun wanted => ?_)
        rcases wanted with _ | _ | w <;>
        simp only [supply, Supply.delayed, within, hd, hle, Bool.not_true]

/-- **Thresholds**: offering the documents with the distances up to a threshold is offering those
within it as they are found. -/
theorem offerAll_upTo (hmost : most.numeral? = some n) (hn : n.HasPlace) (hplaced : key.Placed)
    (s : Selector Value) (ds : List Value) :
    s.offerAll (key.upTo most) ds = s.offerFrom key.ofDocument (key.supply most ds) := by
  induction ds generalizing s with
  | nil => rfl
  | cons d ds ih =>
    rcases supply_cons hmost hn hplaced d ds with ⟨e, hd, hsupply⟩ | ⟨hd, hsupply⟩ |
      ⟨x, hd, hdistance, hsupply⟩
    · rw [hsupply, Selector.offerFrom_failing, Selector.offerAll, hd]
    · rw [hsupply, Selector.offerFrom_delayed, Selector.offerAll, hd, ← ih s]
    · have hdefined : Value.real x ≠ .undefined := by simp
      rw [hsupply, Selector.offerFrom_cons hdistance hdefined, Selector.offerAll_cons hd hdefined]
      simp only [ih]

end DistanceKey

/-! ### What a selection answers -/

namespace Selector

variable {α : Type} {key : α → Except Error Value} {items : List α}

/-- What is selected are items with their keys. -/
theorem mem_select {room : Nat} {found : List (Value × α)}
    (h : (select key (.upTo room) items).outcome = .ok found) :
    ∀ pair ∈ found, pair.2 ∈ items ∧ key pair.2 = .ok pair.1 ∧ pair.1 ≠ .undefined := by
  have htrue : Value.Together (fun _ => True) ((items.filterMap (ranked? key)).map Prod.fst) :=
    List.pairwise_of_forall fun _ _ _ _ => trivial
  have hmeets := select_meets (Q := fun _ => True) (fun _ _ _ _ => trivial) htrue (.upTo room) nofun
  intro pair hpair
  obtain ⟨item, hitem, hranked⟩ := List.mem_filterMap.mp ((hmeets.ok h).subset hpair)
  unfold ranked? at hranked
  split at hranked
  · cases hranked
  · cases hranked
  · rename_i v hdefined hkey
    cases hranked
    exact ⟨hitem, hkey, hdefined⟩

end Selector

/-! ### Rankings -/

namespace Near

variable {env : Environment} {field : String} {target k most limit : Value} {metric : MetricRef}
variable {key : DistanceKey} {ds : List Value} {reading : Value → Except Error Value}
variable {source : Supply Value}

/-- The `k` nearest of the documents that a source makes, of which the first `wanted` are asked
for. -/
def topKFrom (env : Environment) (source : Supply Value) (field : String) (target k : Value)
    (metric : MetricRef) (wanted : Option Nat) : Except Error (Pass (Found Value)) := do
  let key ← DistanceKey.make env field target metric
  if wanted = some 0 then return ⟨0, [], none⟩
  match Room.ofValue k with
  | .error e => return ⟨0, [], some e⟩
  | .ok room =>
    let pass := Selector.selectFrom key.ofDocument room source
    match pass.outcome with
    | .error e => return ⟨pass.pulled, [], some e⟩
    | .ok ranked =>
      let found := ranked.map (·.2)
      return ⟨pass.pulled, wanted.elim found found.take, none⟩

/-- The filter within a distance and then the `k` nearest of what it finds. -/
def filterTopK (env : Environment) (ds : List Value) (field : String) (target k most : Value)
    (metric : MetricRef) (wanted : Option Nat) : Except Error (Pass (Found Value)) := do
  let key ← DistanceKey.make env field target metric
  topKFrom env (key.supply most ds) field target k metric wanted

/-- Of a list the nearest are the nearest of what it makes. -/
theorem topKFrom_ofList (env : Environment) (ds : List Value) (field : String) (target k : Value)
    (metric : MetricRef) (wanted : Option Nat) :
    topKFrom env (.ofList ds) field target k metric wanted =
      topK env ds field target k metric wanted := by
  have hselect (key : Value → Except Error Value) (room : Room) :
      Selector.selectFrom key room (.ofList ds) = Selector.select key room ds := by
    simp only [Selector.selectFrom, Selector.select, Selector.offerFrom_ofList]
  simp only [topKFrom, topK, Selector.selectCount, hselect]
  rcases DistanceKey.make env field target metric with e | key
  · rfl
  · simp only [Bind.bind, Except.bind]
    split
    · rfl
    · rcases Room.ofValue k with e | room <;> rfl

/-- The documents of a ranking, or its failure. -/
def documentsOf : Except Error (List Hit) → Found Value
  | .ok hits => ⟨hits.map (·.document), none⟩
  | .error e => ⟨[], some e⟩

/-- Two ways to the nearest, if they make the same offers. -/
lemma topKFrom_eq {k : Int} (hmake : DistanceKey.make env field target metric = .ok key)
    (hranking : ranking env field target (.int k) metric limit = .ok ⟨reading, .upTo k.toNat⟩)
    (hsame : ∀ s, Selector.offerAll reading s ds = Selector.offerFrom key.ofDocument s source) :
    topKFrom env source field target (.int k) metric none =
      .ok ⟨(rank env ds field target (.int k) metric limit).pulled,
        documentsOf (rank env ds field target (.int k) metric limit).outcome⟩ := by
  have hselect : Selector.select reading (.upTo k.toNat) ds =
      Selector.selectFrom key.ofDocument (.upTo k.toNat) source := by
    simp only [Selector.selectFrom, Selector.select, hsame]
  simp only [topKFrom, hmake, rank, hranking, Ranking.run, Selector.ofValue_int, hselect, Bind.bind,
    Except.bind]
  rcases (Selector.selectFrom key.ofDocument (.upTo k.toNat) source).outcome with e | ranked
  · rfl
  · simp [Except.map, documentsOf, pure, Except.pure]

/-- What a ranking finds are documents with what it goes by. -/
lemma mem_run {r : Ranking} {room : Nat} (hroom : r.room = .upTo room) {hits : List Hit}
    (h : (r.run ds).outcome = .ok hits) :
    ∀ hit ∈ hits, hit.document ∈ ds ∧ r.distance hit.document = .ok hit.distance ∧
      hit.distance ≠ .undefined := by
  obtain ⟨found, hfound, rfl⟩ := map_eq_ok.mp h
  rw [hroom] at hfound
  intro hit hhit
  obtain ⟨pair, hpair, rfl⟩ := List.mem_map.mp hhit
  exact Selector.mem_select hfound pair hpair

lemma mem_rank {k : Int} {hits : List Hit}
    (h : (rank env ds field target (.int k) metric limit).outcome = .ok hits) :
    ∀ hit ∈ hits, hit.document ∈ ds := by
  unfold rank at h
  split at h
  · cases h
  · rename_i r hr
    obtain ⟨key, -, hr⟩ := bind_eq_ok.mp hr
    rw [Selector.ofValue_int] at hr
    cases hr
    exact fun hit hhit => (mem_run rfl h hit hhit).1

end Near

/-! ### Searches -/

namespace Search

/-- A hit as a row: the identifier is the document's, null if it has none. -/
def rowOf (hit : Hit) : Result where
  id :=
    match hit.document with
    | .object fields => (Fields.get? fields "_id").getD .null
    | _ => .null
  distance := hit.distance
  document := hit.document

lemma results_eq {hits : List Hit} (h : ∀ hit ∈ hits, ∃ fields, hit.document = .object fields) :
    results hits = .ok (hits.map rowOf) := by
  refine mapM_eq_ok fun hit hhit => ?_
  obtain ⟨fields, hfields⟩ := h hit hhit
  simp only [resultOf, Hit.id, rowOf, hfields, Bind.bind, Except.bind]
  rfl

end Search

/-! ### Filters and rankings -/

namespace Near

section

variable {env : Environment} {field : String} {target most limit : Value} {metric : MetricRef}
variable {key : DistanceKey} {ds : List Value} {reading : Value → Except Error Value} {k : Int}
variable {source : Supply Value}

/-- A ranking finds the documents of a retrieval in their order, pulls as many documents and fails
alike; it tells of the distance of each, and without room it pulls nothing. -/
structure RanksAs (key : DistanceKey) (ds : List Value) (k : Int)
    (ranked : Pass (Except Error (List Hit))) (retrieval : Except Error (Pass (Found Value))) :
    Prop where
  documents : retrieval = .ok ⟨ranked.pulled, documentsOf ranked.outcome⟩
  distances : ∀ hits, ranked.outcome = .ok hits → ∀ hit ∈ hits,
    hit.document ∈ ds ∧ key.ofDocument hit.document = .ok hit.distance
  idle : k ≤ 0 → ranked = ⟨0, .ok []⟩

/-- A ranking goes by distances if those it reads are of the documents. -/
lemma ranksAs (hmake : DistanceKey.make env field target metric = .ok key)
    (hranking : ranking env field target (.int k) metric limit = .ok ⟨reading, .upTo k.toNat⟩)
    (hsame : ∀ s, Selector.offerAll reading s ds = Selector.offerFrom key.ofDocument s source)
    (hreading : ∀ d v, reading d = .ok v → v ≠ .undefined → key.ofDocument d = .ok v) :
    RanksAs key ds k (rank env ds field target (.int k) metric limit)
      (topKFrom env source field target (.int k) metric none) where
  documents := topKFrom_eq hmake hranking hsame
  distances hits h hit hhit := by
    rw [rank, hranking] at h
    obtain ⟨hmem, hdistance, hdefined⟩ := mem_run rfl h hit hhit
    exact ⟨hmem, hreading _ _ hdistance hdefined⟩
  idle hk := by
    simp only [rank, hranking, Ranking.run, Selector.select, Int.toNat_of_nonpos hk, Room.isNone]
    rfl

/-- What a distance up to a threshold is, is the distance. -/
lemma ofDocument_of_upTo {d v : Value} (h : key.upTo most d = .ok v) (hv : v ≠ .undefined) :
    key.ofDocument d = .ok v := by
  obtain ⟨w, hw, h⟩ := bind_eq_ok.mp h
  split at h
  · cases h
    exact absurd rfl hv
  · obtain ⟨beyond, -, h⟩ := bind_eq_ok.mp h
    cases beyond
    · cases h
      exact hw
    · cases h
      exact absurd rfl hv

end

/-- **Rankings with a threshold**, by a metric whose distances have places on the number line: the
ranking is that of what the filter finds, and without a threshold that of all. A search gives the
hits as rows. -/
theorem rank_refines {env : Environment} {field : String} {target most : Value} {n : Number}
    {metric : MetricRef} (hmost : most.numeral? = some n) (hn : n.HasPlace)
    (hmetric : ∀ key, DistanceKey.make env field target metric = .ok key → key.Placed)
    (ds : List Value) (k : Int) :
    (∀ e, DistanceKey.make env field target metric = .error e →
      (∀ wanted, filter env ds field target most metric wanted = .error e ∧
        filterTopK env ds field target (.int k) most metric wanted = .error e ∧
        topK env ds field target (.int k) metric wanted = .error e) ∧
      ∀ limit, rank env ds field target (.int k) metric limit = ⟨0, .error e⟩) ∧
    (∀ key, DistanceKey.make env field target metric = .ok key →
      (∀ wanted, filter env ds field target most metric wanted =
        .ok ((key.supply most ds).asked wanted)) ∧
      RanksAs key ds k (rank env ds field target (.int k) metric most)
        (filterTopK env ds field target (.int k) most metric none) ∧
      RanksAs key ds k (rank env ds field target (.int k) metric .null)
        (topK env ds field target (.int k) metric none)) ∧
    ∀ (s : Session) (collection path limit : Value), s.env = env → path.pathText = field →
      (∀ d ∈ ds, ∃ fields, d = .object fields) →
      (s.searchAmong collection ds path target (.int k) metric limit).2 =
        ⟨(rank env ds field target (.int k) metric limit).pulled,
          (rank env ds field target (.int k) metric limit).outcome.map (List.map Search.rowOf)⟩ := by
  refine ⟨fun e hmake => ⟨fun wanted => ?_, fun limit => ?_⟩,
    fun key hmake => ⟨fun wanted => ?_, ?_, ?_⟩, ?_⟩
  · simp only [filter, filterTopK, topK, hmake, Bind.bind, Except.bind, and_self]
  · simp only [rank, ranking, hmake, Bind.bind, Except.bind]
  · simp only [filter, hmake, Bind.bind, Except.bind]
    rfl
  · have hcomposed : filterTopK env ds field target (.int k) most metric none =
        topKFrom env (key.supply most ds) field target (.int k) metric none := by
      simp only [filterTopK, hmake, Bind.bind, Except.bind]
    rw [hcomposed]
    exact ranksAs hmake (ranking_numeral hmake hmost k)
      (fun s => DistanceKey.offerAll_upTo hmost hn (hmetric key hmake) s ds)
      fun d v => ofDocument_of_upTo
  · rw [← topKFrom_ofList]
    exact ranksAs hmake (ranking_null hmake k)
      (fun s => (Selector.offerFrom_ofList key.ofDocument s ds).symm) fun d v h _ => h
  · rintro s collection path limit rfl rfl hobjects
    unfold Session.searchAmong
    dsimp only
    rcases hrank : (rank s.env ds path.pathText target (.int k) metric limit).outcome with e | hits
    · rfl
    · have hrows := Search.results_eq fun hit hhit => hobjects _ (mem_rank hrank hit hhit)
      simp only [Except.bind, hrows]
      rfl

/-! ### A threshold in the plane -/

/-- Documents of which one has no vector and one is beyond the threshold. -/
def plane : List Value :=
  [holding "a" .null, holding "b" (.list [.int 2, .int 1]), holding "c" (.list [.int 9, .int 1]),
    holding "d" (.list [.int 0, .int 1])]

/-- The two nearest within three of the point. -/
def nearPlane : Pass (Except Error (List Hit)) :=
  rank {} plane "v" (.embedding north) (.int 2) (.named (.text "euclidean")) (.int 3)

/-- A hit by its identifier. -/
def nameOf (hit : Hit) : String := (Search.rowOf hit).id.pathText

lemma nearPlane_eq : nearPlane.pulled = 4 ∧
    nearPlane.outcome.map (List.map nameOf) = .ok ["d", "b"] := by
  decide +kernel

theorem rank_refines_plane :
    (Value.int 3).numeral? = some (.int 3) ∧ (Number.int 3).HasPlace ∧
      (∀ key, DistanceKey.make {} "v" (.embedding north) (.named (.text "euclidean")) = .ok key →
        key.Placed) ∧
      ∃ hits : List Hit, filterTopK {} plane "v" (.embedding north) (.int 2) (.int 3)
          (.named (.text "euclidean")) none = .ok ⟨4, hits.map (·.document), none⟩ ∧
        (Session.searchAmong {} (.text "docs") plane (.text "v") (.embedding north) (.int 2)
          (.named (.text "euclidean")) (.int 3)).2 = ⟨4, .ok (hits.map Search.rowOf)⟩ ∧
        hits.map nameOf = ["d", "b"] := by
  have hmake : DistanceKey.make {} "v" (.embedding north) (.named (.text "euclidean")) =
      .ok ⟨"v", north, .euclidean⟩ := rfl
  have hplaced : ∀ key, DistanceKey.make {} "v" (.embedding north) (.named (.text "euclidean")) =
      .ok key → key.Placed := by
    intro key hkey
    obtain rfl := Except.ok.inj (hmake.symm.trans hkey)
    exact (DistanceKey.measures_euclidean "v" north).placed
  have hnumeral : (Value.int 3).numeral? = some (.int 3) := rfl
  have hthree : (Number.int 3).HasPlace := ⟨_, rfl⟩
  have hobjects : ∀ d ∈ plane, ∃ fields, d = .object fields := by
    simp [plane, holding]
  obtain ⟨-, hfound, hsearch⟩ := rank_refines hnumeral hthree hplaced plane 2
  have hfiltered := (hfound _ hmake).2.1.documents
  have hrows := hsearch {} (.text "docs") (.text "v") (.int 3) rfl rfl hobjects
  rw [← nearPlane] at hfiltered hrows
  obtain ⟨hpulled, hnames⟩ := nearPlane_eq
  obtain ⟨hits, hhits, hnames⟩ := map_eq_ok.mp hnames
  rw [hpulled, hhits] at hfiltered hrows
  exact ⟨hnumeral, hthree, hplaced, hits, hfiltered, hrows, hnames⟩

end Near

end NearDoc

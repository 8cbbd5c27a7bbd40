import Mathlib.Data.List.Pairwise
import NearDoc.Proofs.Near.Selector

/-!
Whole runs of a selector. A run is a sequence of offers and drains; what it should answer depends
only on the offers since the last drain, ranked by key and then by the order in which they were
made. Main statement: at every moment of every run the selector answers by that ranking.
-/

namespace NearDoc.Selector

open NearDoc.Sort

variable {α : Type} {K : Value → Prop}

/-- What a selector is asked to do. -/
inductive Request (α : Type) where
  | offer (key : Value) (item : α)
  | drain

/-- What a selector answers. -/
inductive Answer (α : Type) where
  | kept (isKept : Bool)
  | drained (items : List (Value × α))

def serve (s : Selector α) : Request α → Selector α × Except Error (Answer α)
  | .offer key item => let (s, r) := s.offer key item; (s, r.map .kept)
  | .drain => let (s, r) := s.drain; (s, r.map .drained)

/-- Serves one request after the other. -/
def serveAll (s : Selector α) : List (Request α) → Selector α × List (Except Error (Answer α))
  | [] => (s, [])
  | r :: requests =>
    let (s, answer) := s.serve r
    let (s, answers) := s.serveAll requests
    (s, answer :: answers)

/-! ### What should be answered -/

/-- Offers with their numbers, in the order of their keys, and of their numbers where keys are
alike. -/
def ranking (offers : List (Value × α)) : List ((Value × α) × Nat) :=
  offers.zipIdx.mergeSort
    (lexicographic (fun a b => a.1.1.atMost b.1.1) (fun a b => decide (a.2 ≤ b.2)))

/-- The first offers of the ranking. -/
def smallest (n : Nat) (offers : List (Value × α)) : List ((Value × α) × Nat) :=
  (ranking offers).take n

namespace Request

/-- The offers since the last drain, when a request has been served. -/
def pending (offers : List (Value × α)) : Request α → List (Value × α)
  | .offer key item => offers ++ [(key, item)]
  | .drain => []

/-- What a request should be answered after some offers: an offer is kept if it is among the
smallest with it. -/
def answer (n : Nat) (offers : List (Value × α)) : Request α → Answer α
  | .offer key item => .kept ((smallest n (offers ++ [(key, item)])).any (·.2 == offers.length))
  | .drain => .drained ((smallest n offers).map (·.1))

/-- The key of an offer is of a kind. -/
def Keyed (K : Value → Prop) : Request α → Prop
  | .offer key _ => K key
  | .drain => True

end Request

/-- The offers since the last drain, after some requests. -/
def pendingAfter (offers : List (Value × α)) (requests : List (Request α)) : List (Value × α) :=
  requests.foldl Request.pending offers

/-- What should be answered to one request after the other. -/
def answersFrom (n : Nat) (offers : List (Value × α)) : List (Request α) → List (Answer α)
  | [] => []
  | r :: requests => r.answer n offers :: answersFrom n (r.pending offers) requests

/-! ### Offers and entries -/

/-- The entry that a numbered offer makes when so many entries were made before. -/
def numbered (base : Nat) (offer : (Value × α) × Nat) : Entry α :=
  ⟨offer.1.1, base + offer.2, offer.1.2⟩

def entriesFrom (base : Nat) (offers : List (Value × α)) : List (Entry α) :=
  offers.zipIdx.map (numbered base)

lemma entriesFrom_append (base : Nat) (offers : List (Value × α)) (o : Value × α) :
    entriesFrom base (offers ++ [o]) =
      entriesFrom base offers ++ [⟨o.1, base + offers.length, o.2⟩] := by
  simp [entriesFrom, List.zipIdx_append, numbered]

lemma length_entriesFrom (base : Nat) (offers : List (Value × α)) :
    (entriesFrom base offers).length = offers.length := by
  simp [entriesFrom]

/-- The first entries are those of the smallest offers. -/
lemma best_entriesFrom (n base : Nat) {offers : List (Value × α)}
    (hkeys : ∀ e ∈ entriesFrom base offers, e.Keyed K) :
    best K n (entriesFrom base offers) = (smallest n offers).map (numbered base) := by
  rw [smallest, List.map_take, best]
  congr 1
  refine (List.map_mergeSort fun a ha b hb => ?_).symm
  rw [Entry.rank_eq (hkeys _ (List.mem_map_of_mem ha)) (hkeys _ (List.mem_map_of_mem hb))]
  simp [Entry.order, lexicographic, numbered]

/-- The selector stands where it should after some offers. -/
inductive Tracks (K : Value → Prop) : Selector α → Nat → List (Value × α) → Prop where
  | closed {offers : List (Value × α)} : Tracks K (.empty (.upTo 0)) 0 offers
  | holding {s : Selector α} {n : Nat} {offers : List (Value × α)} (base : Nat) (hpos : 0 < n)
      (h : s.Holds K n (entriesFrom base offers)) (harrivals : s.arrivals = base + offers.length) :
      Tracks K s n offers

section

variable {s : Selector α} {n : Nat} {offers : List (Value × α)}

lemma tracks_empty (K : Value → Prop) (n : Nat) : Tracks K (.empty (α := α) (.upTo n)) n [] := by
  rcases Nat.eq_zero_or_pos n with rfl | hpos
  · exact .closed
  · exact .holding 0 hpos (holds_empty K n) rfl

/-- A kept offer is found among the smallest by its number. -/
lemma any_number_eq {base : Nat} {kept : Bool} {key : Value} {item : α}
    (hkeys : ∀ e ∈ entriesFrom base (offers ++ [(key, item)]), e.Keyed K)
    (h : kept = true ↔ ⟨key, base + offers.length, item⟩ ∈
      best K n (entriesFrom base (offers ++ [(key, item)]))) :
    (smallest n (offers ++ [(key, item)])).any (·.2 == offers.length) = kept := by
  rw [best_entriesFrom n base hkeys, List.mem_map] at h
  rw [Bool.eq_iff_iff, h, List.any_eq_true]
  constructor
  · rintro ⟨o, ho, hnumber⟩
    refine ⟨o, ho, ?_⟩
    have hz : o ∈ (offers ++ [(key, item)]).zipIdx :=
      List.mem_mergeSort.mp (List.mem_of_mem_take ho)
    rw [List.mem_zipIdx_iff_getElem?, beq_iff_eq.mp hnumber] at hz
    simp only [List.getElem?_concat_length, Option.some.injEq] at hz
    simp [numbered, ← hz, beq_iff_eq.mp hnumber]
  · rintro ⟨o, ho, hnumber⟩
    refine ⟨o, ho, ?_⟩
    have := congrArg Entry.arrival hnumber
    simpa [numbered] using this

/-- **One request** is answered as it should be. -/
theorem Tracks.serve (hK : Value.OrderedKeys K) (h : Tracks K s n offers) {r : Request α}
    (hr : r.Keyed K) :
    ∃ s', s.serve r = (s', .ok (r.answer n offers)) ∧ Tracks K s' n (r.pending offers) := by
  cases h with
  | closed =>
    -- nothing is asked for, and nothing changes
    cases r with
    | offer key item => exact ⟨_, rfl, .closed⟩
    | drain =>
      refine ⟨_, ?_, .closed⟩
      obtain ⟨hd, -⟩ := (holds_empty (α := α) K 0).drain hK
      simp only [Selector.serve, hd, Except.map, Request.answer]
      rfl
  | holding base hpos h harrivals =>
    cases r with
    | offer key item =>
      obtain ⟨s', kept, hs', harr, hh, hkept⟩ := h.offer hK hpos hr item
      have he : Holds.entryOf s key item = ⟨key, base + offers.length, item⟩ := by
        rw [Holds.entryOf, harrivals]
      rw [he, ← entriesFrom_append base offers (key, item)] at hh hkept
      refine ⟨s', ?_, .holding base hpos hh
        (by simp [harr, harrivals, Nat.add_assoc, Request.pending])⟩
      simp only [Selector.serve, hs', Except.map, Request.answer,
        any_number_eq hh.keyed hkept]
    | drain =>
      obtain ⟨hd, hh⟩ := h.drain hK
      refine ⟨_, ?_, .holding s.arrivals hpos hh rfl⟩
      simp only [Selector.serve, hd, Except.map, Request.answer, best_entriesFrom n base h.keyed,
        List.map_map]
      rfl

/-- A run answers as it should and ends where it should. -/
theorem Tracks.serveAll (hK : Value.OrderedKeys K) (h : Tracks K s n offers)
    {requests : List (Request α)} (hr : ∀ r ∈ requests, r.Keyed K) :
    ∃ s', s.serveAll requests = (s', (answersFrom n offers requests).map .ok) ∧
      Tracks K s' n (pendingAfter offers requests) := by
  induction requests generalizing s offers with
  | nil => exact ⟨s, rfl, h⟩
  | cons r requests ih =>
    rw [List.forall_mem_cons] at hr
    obtain ⟨s', hs', h'⟩ := h.serve hK hr.1
    obtain ⟨s'', hs'', h''⟩ := ih h' hr.2
    exact ⟨s'', by simp only [Selector.serveAll, hs', hs'']; rfl, h''⟩

lemma Tracks.size_eq (h : Tracks K s n offers) : s.size = min n offers.length := by
  cases h with
  | closed => simp [size, empty]
  | holding base _ h _ => rw [size, h.size_eq, length_entriesFrom]

lemma Tracks.largest_eq (hK : Value.OrderedKeys K) (h : Tracks K s n offers) :
    s.largest = (smallest n offers).getLast?.elim .undefined (·.1.1) := by
  cases h with
  | closed => rfl
  | holding base _ h _ =>
    rw [largest, h.root_eq hK, best_entriesFrom n base h.keyed, List.getLast?_map]
    cases (smallest n offers).getLast? <;> rfl

end

/-- The room that an integer gives. -/
lemma ofValue_int (k : Int) : Room.ofValue (.int k) = .ok (.upTo k.toNat) := by
  unfold Room.ofValue
  rw [Value.relate_le_int]
  by_cases hk : k ≤ 0
  · rw [Int.toNat_of_nonpos hk, decide_eq_true hk]
    rfl
  · rw [decide_eq_false hk]
    rfl

lemma fst_mem_of_mem_smallest {n : Nat} {offers : List (Value × α)} {o : (Value × α) × Nat}
    (h : o ∈ smallest n offers) : o.1 ∈ offers :=
  List.fst_mem_of_mem_zipIdx (List.mem_mergeSort.mp (List.mem_of_mem_take h))

lemma totalPreorderOn_number (K : Value → Prop) :
    TotalPreorderOn (fun o : (Value × α) × Nat => K o.1.1) fun a b => decide (a.2 ≤ b.2) := by
  refine ⟨fun a b _ _ => by simpa using Nat.le_total a.2 b.2, fun a b c _ _ _ hab hbc => ?_⟩
  simp only [decide_eq_true_eq] at *
  omega

/-- The smallest offers are in the order of their keys. -/
lemma pairwise_smallest (hK : Value.OrderedKeys K) (n : Nat) {offers : List (Value × α)}
    (hkeys : ∀ o ∈ offers, K o.1) :
    (smallest n offers).Pairwise fun a b => a.1.1.atMost b.1.1 := by
  have hkey := hK.total.comap (fun o : (Value × α) × Nat => o.1.1) fun _ h => h
  have hboth := hkey.lexicographic (totalPreorderOn_number K)
  have hsorted := hboth.pairwise_mergeSort (l := offers.zipIdx)
    fun o ho => hkeys _ (List.fst_mem_of_mem_zipIdx ho)
  refine (hsorted.sublist (List.take_sublist _ _)).imp fun {a b} hab => ?_
  simp only [lexicographic, Bool.and_eq_true] at hab
  exact hab.1

/-- All keys of offers in a run are of a kind. -/
lemma keyed_pendingAfter {offers : List (Value × α)} {requests : List (Request α)}
    (ho : ∀ o ∈ offers, K o.1) (hr : ∀ r ∈ requests, r.Keyed K) :
    ∀ o ∈ pendingAfter offers requests, K o.1 := by
  induction requests generalizing offers with
  | nil => exact ho
  | cons r requests ih =>
    rw [List.forall_mem_cons] at hr
    refine ih (fun o h => ?_) hr.2
    cases r with
    | offer key item =>
      rcases List.mem_append.mp h with h | h
      · exact ho o h
      · rw [List.mem_singleton.mp h]
        exact hr.1
    | drain => simp [Request.pending] at h

/-- **Exactness**: whatever is offered and drained, a selector for `k` entries answers every
request by the ranking of the offers since the last drain; it holds as many of them as there are
and as are asked for, and its largest key is that of the last of the smallest ones. -/
theorem serveAll_empty (hK : Value.OrderedKeys K) (k : Int) (requests : List (Request α))
    (hkeys : ∀ r ∈ requests, r.Keyed K) :
    ∃ room s, Room.ofValue (.int k) = .ok room ∧
      (empty room).serveAll requests =
        (s, (answersFrom (max k 0).toNat [] requests).map .ok) ∧
      s.size = min (max k 0).toNat (pendingAfter [] requests).length ∧
      s.largest =
        (smallest (max k 0).toNat (pendingAfter [] requests)).getLast?.elim .undefined (·.1.1) ∧
      ∀ o ∈ smallest (max k 0).toNat (pendingAfter [] requests), o.1.1.atMost s.largest := by
  have hmax : (max k 0).toNat = k.toNat := by omega
  rw [hmax]
  obtain ⟨s, hs, ht⟩ := (tracks_empty K k.toNat).serveAll hK hkeys
  refine ⟨_, s, ofValue_int k, hs, ht.size_eq, ht.largest_eq hK, fun o ho => ?_⟩
  have hpending : ∀ o ∈ pendingAfter [] requests, K o.1 :=
    keyed_pendingAfter (by simp) hkeys
  have hne := List.ne_nil_of_mem ho
  rw [ht.largest_eq hK, List.getLast?_eq_getLast_of_ne_nil hne]
  refine (pairwise_smallest hK k.toNat hpending).rel_getLast_of_rel_getLast_getLast ho ?_
  exact hK.total.refl (hpending _ (fst_mem_of_mem_smallest (List.getLast_mem hne)))

/-- Offers with alike keys, more of them than there is room for, and a drain among them. -/
def tiedRequests : List (Request String) :=
  [.offer (.int 3) "a", .offer (.int 1) "b", .offer (.int 3) "c", .offer (.int 1) "d", .drain,
    .offer (.int 7) "e"]

lemma keyed_tiedRequests : ∀ r ∈ tiedRequests, r.Keyed Value.IsPlaced := by
  have hint : ∀ i : Int, Value.IsPlaced (.int i) := fun i => ⟨.int i, _, rfl, rfl⟩
  simp [tiedRequests, Request.Keyed, hint]

lemma answersFrom_tiedRequests : answersFrom 2 [] tiedRequests =
    [.kept true, .kept true, .kept false, .kept true,
      .drained [(.int 1, "b"), (.int 1, "d")], .kept true] := by
  simp [tiedRequests, answersFrom, Request.answer, smallest, ranking, Request.pending,
    lexicographic, Value.atMost_int, List.mergeSort]

theorem serveAll_tiedRequests :
    Value.OrderedKeys Value.IsPlaced ∧ (∀ r ∈ tiedRequests, r.Keyed Value.IsPlaced) ∧
      ∃ room s, Room.ofValue (.int 2) = .ok room ∧
        (empty room).serveAll tiedRequests =
          (s, [.ok (.kept true), .ok (.kept true), .ok (.kept false), .ok (.kept true),
            .ok (.drained [(.int 1, "b"), (.int 1, "d")]), .ok (.kept true)]) ∧
        s.size = 1 ∧ s.largest = .int 7 := by
  refine ⟨Value.orderedKeys_isPlaced, keyed_tiedRequests, ?_⟩
  obtain ⟨room, s, hroom, hserve, hsize, hlargest, -⟩ :=
    serveAll_empty Value.orderedKeys_isPlaced 2 tiedRequests keyed_tiedRequests
  have htwo : (max (2 : Int) 0).toNat = 2 := rfl
  rw [htwo] at hserve hlargest
  refine ⟨room, s, hroom, ?_, hsize, ?_⟩
  · rw [hserve, answersFrom_tiedRequests]
    rfl
  · simpa [pendingAfter, tiedRequests, Request.pending, smallest, ranking] using hlargest

end NearDoc.Selector

import NearDoc.Proofs.Near.Question
import NearDoc.Proofs.Query.Sentence
import NearDoc.Proofs.Validation.Near

/-!
A question for the documents near a target, asked on three surfaces: directly, by a call of a
builder, and by a sentence that has the target and the distance for parameters. Main statement: all
three find the same documents in the same order, and where a document is refused all three fail, in
the same way and at the same place.
-/

namespace NearDoc

open Grammar

/-- A point of the plane. -/
def Question.east : Embedding := ⟨[.ofInt 1, .ofInt 0], by simp, by decide +kernel⟩

/-! ### The distance operators -/

namespace Operators

lemma upper_distanceName : Text.upper distanceName = distanceName := by decide +kernel

/-- Each distance operator is taken for itself and not for the other. -/
lemma same_distance :
    (∀ n ∈ [2, 3], OperatorKey.same ⟨distanceName, .int n⟩ ⟨distanceName, .int n⟩ = true) ∧
      OperatorKey.same ⟨distanceName, .int 2⟩ ⟨distanceName, .int 3⟩ = false := by
  decide +kernel

lemma entries_standard : standard.entries =
    [(⟨distanceName, .int 2⟩, .distance false (.int 2)),
      (⟨distanceName, .int 3⟩, .distance true (.int 3))] := by
  have hkey (b : Bool) (n : Int) :
      (Operator.distance b (.int n)).key = ⟨distanceName, .int n⟩ := by
    simp only [Operator.key, Operator.name, Operator.arity, upper_distanceName]
  simp [standard, withDistance, insert, find?, empty, hkey, same_distance.2]

end Operators

namespace Question

variable {q : Question} {env : Environment} {key : DistanceKey} {ds : List Value}

lemma resolve_distance (q : Question) (target : Expr) :
    Operators.standard.resolve distanceName (.int (q.arguments target).length) =
      .ok q.operator := by
  have hhash (n : Int) : (Value.int n).hashKey?.isNone = false := rfl
  unfold operator arity arguments
  rw [Operators.resolve, hhash, Operators.upper_distanceName, Operators.find?,
    Operators.entries_standard]
  cases q.metric <;> simp [Operators.same_distance.1, Operators.same_distance.2]

/-! ### The builder -/

variable (q)

/-- The call that asks the question. -/
def call : BuilderCall :=
  match q.reach with
  | .within most => .within ⟨.text q.field, q.target, .real most, q.metricValue⟩
  | .nearest k => .nearest ⟨.text q.field, q.target, .int k, q.metricValue⟩

/-- The plan of a builder that got the call, carried out on documents. -/
def build (env : Environment) (ds : List Value) : Except Error Cursor := do
  let b ← Builder.call env { operators := .standard } q.call
  b.build.execute env [] (some (.documents ds))

variable {q}

lemma distance_eq_measure (h : q.Askable env key) {β : Type} (bound : β) :
    Builder.distance { operators := .standard } ⟨q.field, key.target, bound, q.metricValue⟩ =
      .ok (q.measure (.literal (.embedding key.target))) := by
  have harguments : [Expr.field q.field, .literal (.embedding key.target)] ++
      (if q.metricValue.isNull then [] else [.literal q.metricValue]) =
        q.arguments (.literal (.embedding key.target)) := by
    unfold metricValue arguments
    cases q.metric <;> rfl
  have htarget : Embedding.ofValue (.embedding key.target) = .ok key.target := rfl
  simp only [Builder.distance, Operators.distanceCall, h.field.field?, htarget, Bind.bind,
    Except.bind, harguments, Operators.call, resolve_distance]
  rfl

/-- The call succeeds and leaves the plan of the question. -/
lemma exists_call (h : q.Askable env key) :
    ∃ b, Builder.call env { operators := .standard } q.call = .ok b ∧
      b.build = q.plan .null (.literal (.embedding key.target)) fun x => .literal (.real x) := by
  obtain ⟨htarget, hmetric, -⟩ := h.target_eq
  obtain ⟨names, hnames⟩ := h.names
  have hpass := Check.metric_eq_ok hnames hmetric
  have hpath := Check.path_eq_ok h.field.segments
  unfold call plan
  rcases hreach : q.reach with x | k
  · have hspec : NearSpec.within env.metrics ⟨.text q.field, q.target, .real x, q.metricValue⟩ =
        .ok ⟨q.field, key.target, x, q.metricValue⟩ :=
      NearSpec.check_eq_ok htarget hpass hpath (Check.threshold_eq_ok (h.finite x hreach))
    simp only [Builder.call, Builder.within, hspec, Bind.bind, Except.bind, distance_eq_measure h]
    exact ⟨_, rfl, rfl⟩
  · have hspec : NearSpec.nearest env.metrics ⟨.text q.field, q.target, .int k, q.metricValue⟩ =
        .ok ⟨q.field, key.target, k, q.metricValue⟩ :=
      NearSpec.check_eq_ok htarget hpass hpath rfl
    simp only [Builder.call, Builder.takeNearest, hspec, Bind.bind, Except.bind,
      distance_eq_measure h]
    exact ⟨_, rfl, rfl⟩

lemma bind_literal (env : Environment) (params : Params) (v : Value) :
    (Expr.literal v).bind env params = .ok (.literal v) := by rw [Expr.bind]

lemma answers_build (store : Store) (h : q.Askable env key) :
    Answers env store (q.build env ds) (q.found key ds) := by
  obtain ⟨b, hb, hbuild⟩ := exists_call h
  simp only [build, hb, Bind.bind, Except.bind, hbuild]
  exact answers_plan store h .null (bind_literal ..) rfl fun x _ => bind_literal ..

/-! ### The sentence -/

variable (q)

/-- The distance as a sentence has it; the target is the parameter `t`. -/
def distance : String :=
  distanceName ++ "(" ++ q.field ++ ", @t" ++ q.metric.elim "" (fun m => ", " ++ quote m) ++ ")"

/-- The sentence that asks the question; the greatest distance is the parameter `d`. -/
def sentence (collection : String) : String :=
  "SELECT * FROM " ++ collection ++
    match q.reach with
    | .within _ => " WHERE " ++ q.distance ++ " <= @d"
    | .nearest k => " ORDER BY " ++ q.distance ++ " LIMIT " ++ String.ofList (Number.writeInt k)

def params : Params :=
  match q.reach with
  | .within most => [("t", q.target), ("d", .real most)]
  | .nearest _ => [("t", q.target)]

/-- The sentence read and carried out on documents. -/
def read (env : Environment) (collection : String) (ds : List Value) : Except Error Cursor := do
  let p ← Plan.parse .standard (q.sentence collection)
  p.execute env q.params (some (.documents ds))

/-- The sentence has a limit that is read, or none. -/
def IsReadable : Prop :=
  ∀ k, q.reach = .nearest k → (Text.digitsOf k.natAbs).length ≤ Number.longestInteger

/-- The target as a sentence has it. -/
def targetParam : Expr := .param (.text "t")

def mostParam : Expr := .param (.text "d")

/-- The words of the distance. -/
def distanceWords : List Word :=
  wordOf distanceName :: mark "(" :: wordOf q.field :: mark "," :: ⟨.param, "@t"⟩ ::
    (q.metric.elim [] (fun m => [mark ",", ⟨.text, quote m⟩]) ++ [mark ")"])

variable {q}

/-- The metric as a sentence has it. -/
lemma appends_metric (q : Question) :
    Appends (q.metric.elim "" fun m => ", " ++ quote m).toList
      (q.metric.elim [] fun m => [mark ",", ⟨.text, quote m⟩]) := by
  cases q.metric with
  | none => exact .nil
  | some m =>
    have htext : (", " ++ quote m).toList = ',' :: ' ' :: (quote m).toList := by
      simp [String.toList_append]
    rw [Option.elim_some, htext]
    exact .comma (lexes_quote m)

lemma lexes_distance (hfield : IsName q.field) : Lexes q.distance.toList q.distanceWords := by
  have hname : Lexes distanceName.toList [wordOf distanceName] := lexes_wordOf rfl
  have htarget : Lexes "@t".toList [⟨.param, "@t"⟩] :=
    .of_tokens (show Token.tokens "@t" = .ok [⟨.param, "@t", 0⟩] from rfl)
  have hinside := ((Appends.comma htarget).append ((appends_metric q).append .close)) _ _
    hfield.lexes
  have hopen := Appends.of_separates (separates_of_mem '(' (by simp)) (.punct (by simp) hinside)
  have htext : q.distance.toList = distanceName.toList ++ '(' :: (q.field.toList ++
      (',' :: ' ' :: "@t".toList ++
        ((q.metric.elim "" fun m => ", " ++ quote m).toList ++ [')']))) := by
    simp only [distance, String.toList_append, List.append_assoc]
    rfl
  rw [htext]
  exact hopen _ _ hname

lemma derives_arguments (hfield : IsName q.field) :
    Derives .standard .arguments (wordOf q.field :: mark "," :: ⟨.param, "@t"⟩ ::
      (q.metric.elim [] (fun m => [mark ",", ⟨.text, quote m⟩]) ++ [mark ")"]))
        (q.arguments targetParam) := by
  have hname : Derives .standard (.junction .or) [wordOf q.field] [.field q.field] :=
    derives_of_primary (.field hfield.keyword?)
  have htarget : Derives .standard (.junction .or) [⟨.param, "@t"⟩] [targetParam] :=
    derives_of_primary .param
  unfold arguments
  cases q.metric with
  | none => exact .someArguments (.argument hname (.lastArgument htarget))
  | some m =>
    have hmetric : Derives .standard (.junction .or) [⟨.text, quote m⟩] [.literal (.text m)] :=
      derives_of_primary (.constant (by rw [← Parser.textValue_quote m]; rfl))
    exact .someArguments (.argument hname (.argument htarget (.lastArgument hmetric)))

lemma derives_distance (hfield : IsName q.field) :
    Derives .standard .primary q.distanceWords [q.measure targetParam] :=
  .call (by decide) (derives_arguments hfield) (resolve_distance q targetParam)

/-- A sentence whose condition stands by itself, without parentheses. -/
lemma parse_where {ops : Operators} {collection s : String} {e : Expr}
    (hcollection : IsName collection) (hs : Expr.parse ops s = .ok e) :
    Plan.parse ops ("SELECT * FROM " ++ collection ++ " WHERE " ++ s) =
      .ok { collection := .text collection, predicate := some e } := by
  obtain ⟨ws, hws, hderives⟩ := Parser.parse_eq_ok.mp hs
  have hstar : Lexes ['*'] [mark "*"] := .punct (by simp) .nil
  have happ := (Appends.blank hstar).append
    ((Appends.blank (lexes_keyword "FROM" (by decide))).append
      ((Appends.blank hcollection.lexes).append
        ((Appends.blank (lexes_keyword "WHERE" (by decide))).append (.blank hws))))
  have hlexes := happ _ _ (lexes_keyword "SELECT" (by decide))
  have hfront : DerivesFront ops
      (wordOf "SELECT" :: ([mark "*"] ++ wordOf "FROM" :: wordOf collection ::
        ((wordOf "WHERE" :: ws) ++ []))) { collection := .text collection, predicate := some e } :=
    .front (by decide) .star (by decide) hcollection.keyword? rfl (.some (by decide) hderives) .none
  have hquery := DerivesQuery.query hfront .none
  rw [List.append_nil, List.append_nil] at hquery
  refine Parser.parse_of_derives ?_ hquery
  have htext : ("SELECT * FROM " ++ collection ++ " WHERE " ++ s).toList =
      "SELECT".toList ++ (' ' :: ['*'] ++ (' ' :: "FROM".toList ++ (' ' :: collection.toList ++
        (' ' :: "WHERE".toList ++ ' ' :: s.toList)))) := by
    simp only [String.toList_append, List.append_assoc]
    rfl
  rw [htext]
  exact hlexes

/-- A sentence with a threshold is read as the plan of the question. -/
lemma parse_within {most : Binary64} (hreach : q.reach = .within most) (hfield : IsName q.field)
    {collection : String} (hcollection : IsName collection) :
    Plan.parse .standard (q.sentence collection) =
      .ok (q.plan (.text collection) targetParam fun _ => mostParam) := by
  have hbound : Lexes "<= @d".toList [⟨.op, "<="⟩, ⟨.param, "@d"⟩] :=
    .of_tokens (show Token.tokens "<= @d" = .ok [⟨.op, "<=", 0⟩, ⟨.param, "@d", 3⟩] from rfl)
  have hlexes := Appends.blank hbound _ _ (lexes_distance hfield)
  have hderives : Derives .standard (.junction .or)
      (q.distanceWords ++ [⟨.op, "<="⟩, ⟨.param, "@d"⟩])
        [.compare (.order .le) (q.measure targetParam) mostParam] :=
    derives_of_comparison (.compare (derives_distance hfield) (by decide) .param)
  have hparse : Expr.parse .standard (q.distance ++ " <= @d") =
      .ok (.compare (.order .le) (q.measure targetParam) mostParam) := by
    refine Parser.parse_eq_ok.mpr ⟨_, ?_, hderives⟩
    rw [String.toList_append]
    exact hlexes
  have hsentence : q.sentence collection =
      "SELECT * FROM " ++ collection ++ " WHERE " ++ (q.distance ++ " <= @d") := by
    simp only [sentence, hreach, String.append_assoc]
  rw [hsentence, parse_where hcollection hparse, plan, hreach]

/-- The nearest as a query of its own. -/
def nearestDraft (q : Question) (k : Int) (collection : String) : Draft :=
  { collection, order := [(q.distance, false)], limit := some k }

lemma sayable_nearestDraft (hfield : IsName q.field) {collection : String}
    (hcollection : IsName collection) (k : Int) :
    (q.nearestDraft k collection).Sayable .standard ∧
      Expr.parse .standard q.distance = .ok (q.measure targetParam) := by
  have hparse : Expr.parse .standard q.distance = .ok (q.measure targetParam) :=
    Parser.parse_eq_ok.mpr ⟨_, lexes_distance hfield, derives_of_primary (derives_distance hfield)⟩
  refine ⟨⟨hcollection, by simp [nearestDraft], ?_, by simp [nearestDraft],
    by simp [nearestDraft]⟩, hparse⟩
  simp only [nearestDraft, List.forall_mem_cons]
  exact ⟨⟨_, hparse⟩, by simp⟩

lemma sentence_nearest {k : Int} (hreach : q.reach = .nearest k) (collection : String) :
    q.sentence collection = (q.nearestDraft k collection).sentence := by
  rw [sentence, hreach]
  simp [nearestDraft, Draft.sentence, Draft.selection, Draft.showsAll, Draft.condition,
    Draft.ordering, Draft.cut, String.append_assoc]

/-- A sentence with an order and a limit is read as the plan of the question. -/
lemma parse_nearest {k : Int} (hreach : q.reach = .nearest k) (hfield : IsName q.field)
    {collection : String} (hcollection : IsName collection)
    (hk : (Text.digitsOf k.natAbs).length ≤ Number.longestInteger) :
    Plan.parse .standard (q.sentence collection) =
      .ok (q.plan (.text collection) targetParam fun _ => mostParam) := by
  obtain ⟨hsayable, hparse⟩ := sayable_nearestDraft hfield hcollection k
  have hexpr : Draft.exprOf .standard q.distance = q.measure targetParam := by
    rw [Draft.exprOf, hparse]
    rfl
  have hplan : (q.nearestDraft k collection).plan .standard =
      q.plan (.text collection) targetParam fun _ => mostParam := by
    simp [plan, hreach, nearestDraft, Draft.plan, Draft.showsAll, hexpr]
  rw [sentence_nearest hreach, ← hplan]
  exact Draft.parse_sentence ⟨hsayable, by simpa [nearestDraft] using hk, by simp [nearestDraft]⟩

lemma bind_targetParam (q : Question) :
    targetParam.bind env q.params = .ok (.literal q.target) := by
  have hfind : q.params.find (.text "t") = .ok q.target := by
    unfold params
    cases q.reach <;> rfl
  rw [targetParam, Expr.bind, hfind]
  rfl

lemma bind_mostParam {most : Binary64} (hreach : q.reach = .within most) :
    mostParam.bind env q.params = .ok (.literal (.real most)) := by
  have hfind : q.params.find (.text "d") = .ok (.real most) := by
    rw [params, hreach]
    rfl
  rw [mostParam, Expr.bind, hfind]
  rfl

lemma answers_read (store : Store) (h : q.Askable env key) {collection : String}
    (hcollection : IsName collection) (hreadable : q.IsReadable) :
    Answers env store (q.read env collection ds) (q.found key ds) := by
  have hparse : Plan.parse .standard (q.sentence collection) =
      .ok (q.plan (.text collection) targetParam fun _ => mostParam) := by
    rcases hreach : q.reach with most | k
    · exact parse_within hreach h.field hcollection
    · exact parse_nearest hreach h.field hcollection (hreadable k hreach)
  simp only [read, hparse, Bind.bind, Except.bind]
  exact answers_plan store h _ (bind_targetParam q) h.target_eq.1 fun x hx => bind_mostParam hx

/-- **Surfaces**: the direct search, the builder and the sentence find the same, and what ends one
of them before its time ends all: a document that is refused. -/
theorem surfaces_agree (store : Store) (h : q.Askable env key) {collection : String}
    (hcollection : IsName collection) :
    ∃ found, q.search env ds = .ok found ∧ Answers env store (q.build env ds) found ∧
      (q.IsReadable → Answers env store (q.read env collection ds) found) ∧
      ∀ e ∈ found.failure, ∃ d ∈ ds, key.Refuses d e :=
  ⟨q.found key ds, search_eq_found h, answers_build store h, answers_read store h hcollection,
    exists_refused h⟩

/-! ### Around a point -/

/-- A question about the point. -/
def towards (reach : Reach) : Question :=
  { field := "v", target := .embedding east, metric := some "euclidean", reach }

lemma askable_towards {reach : Reach} (h : ∀ most, reach = .within most → most.isFinite) :
    (towards reach).Askable {} ⟨"v", east, .euclidean⟩ where
  field := show IsName "v" from ⟨rfl, rfl⟩
  make := rfl
  measures := DistanceKey.measures_euclidean "v" east
  names := ⟨_, rfl⟩
  finite := h

/-- A document with a name and a place. -/
def placed (name : String) (place : Value) : Value := .object [("_id", .text name), ("v", place)]

def nameOf : Value → String
  | .object ((_, .text name) :: _) => name
  | _ => ""

/-- Documents near the point and far from it, one without a place, and one on a line. -/
def places : List Value :=
  [placed "a" (.list [.int 1, .int 1]), .object [("_id", .text "b")],
    placed "c" (.list [.int 5, .int 0]), placed "d" (.text "[1, 0]"), placed "e" (.list [.int 1]),
    placed "f" (.list [.int 1, .int 0])]

def nextTo : Question := towards (.within (.ofInt 1))

lemma askable_nextTo : nextTo.Askable {} ⟨"v", east, .euclidean⟩ := by
  have hfinite : (Binary64.ofInt 1).isFinite := by decide +kernel
  exact askable_towards fun most h => Reach.within.inj h ▸ hfinite

lemma found_nextTo : (nextTo.found ⟨"v", east, .euclidean⟩ places).items.map nameOf = ["a", "d"] ∧
    (nextTo.found ⟨"v", east, .euclidean⟩ places).failure = some (.dimensionMismatch 2 1) := by
  decide +kernel

theorem surfaces_agree_nextTo :
    nextTo.Askable {} ⟨"v", east, .euclidean⟩ ∧ IsName "docs" ∧ nextTo.IsReadable ∧
      ∃ found, nextTo.search {} places = .ok found ∧
        Answers {} {} (nextTo.build {} places) found ∧
        Answers {} {} (nextTo.read {} "docs" places) found ∧
        found.items.map nameOf = ["a", "d"] ∧
        found.failure = some (.dimensionMismatch 2 1) := by
  have hdocs : IsName "docs" := ⟨rfl, rfl⟩
  have hreadable : nextTo.IsReadable := nofun
  obtain ⟨found, hsearch, hbuild, hread, -⟩ : ∃ found, nextTo.search {} places = .ok found ∧ _ :=
    surfaces_agree {} askable_nextTo hdocs
  refine ⟨askable_nextTo, hdocs, hreadable, found, hsearch, hbuild, hread hreadable, ?_⟩
  have hfound : found = nextTo.found ⟨"v", east, .euclidean⟩ places :=
    Except.ok.inj (hsearch.symm.trans (search_eq_found askable_nextTo))
  rw [hfound]
  exact found_nextTo

/-! ### Where the surfaces part -/

/-- The nearest, as many as a one and some zeros. -/
def nearestRound (zeros : Nat) : Question := towards (.nearest (10 ^ zeros : Nat))

lemma askable_nearestRound (zeros : Nat) :
    (nearestRound zeros).Askable {} ⟨"v", east, .euclidean⟩ :=
  askable_towards fun _ h => Reach.noConfusion h

lemma read_nearestRound {zeros : Nat} (h : Number.longestInteger ≤ zeros) :
    (nearestRound zeros).read {} "docs" ds = .error (.tooManyDigits (zeros + 1)) := by
  have hdigits : (Text.digitsOf (Int.natAbs (10 ^ zeros : Nat))).length = zeros + 1 := by
    rw [Int.natAbs_natCast, Text.length_digitsOf_pow]
  have hsayable := (sayable_nearestDraft (askable_nearestRound zeros).field
    (show IsName "docs" from ⟨rfl, rfl⟩) (10 ^ zeros : Nat)).1
  have hparse := Draft.parse_sentence_of_long hsayable rfl (by omega)
  rw [hdigits, ← sentence_nearest rfl] at hparse
  rw [read, hparse]
  rfl

/-- The text of a list of one integer, a one and some zeros. -/
def roundText (zeros : Nat) : List Char := '[' :: '1' :: (List.replicate zeros '0' ++ [']'])

lemma readPlain_round {zeros : Nat} (h : Number.longestInteger ≤ zeros) :
    Json.readPlain ('1' :: (List.replicate zeros '0' ++ [']'])) =
      .error (.tooManyDigits (zeros + 1)) := by
  have hdigits : ∀ c ∈ '1' :: List.replicate zeros '0', Json.isAsciiDigit c = true := by
    rw [List.forall_mem_cons]
    refine ⟨by decide, fun c hc => ?_⟩
    rw [List.eq_of_mem_replicate hc]
    decide
  have hspan : ('1' :: List.replicate zeros '0' ++ [']']).takeWhile Json.isAsciiDigit =
      '1' :: List.replicate zeros '0' := by
    rw [List.takeWhile_append_of_pos hdigits]
    simp [Json.isAsciiDigit]
  have hdrop : ('1' :: List.replicate zeros '0' ++ [']']).dropWhile Json.isAsciiDigit = [']'] := by
    rw [List.dropWhile_append_of_pos hdigits]
    simp [Json.isAsciiDigit]
  have hwhole : Json.takeWhole? ('1' :: (List.replicate zeros '0' ++ [']'])) =
      some ('1' :: List.replicate zeros '0', [']']) := by
    rw [List.cons_append] at hspan hdrop
    rw [Json.takeWhole?, hspan, hdrop]
    rfl
  have hnumber : Json.readNumber false ('1' :: (List.replicate zeros '0' ++ [']'])) =
      .error (.tooManyDigits (zeros + 1)) := by
    rw [Json.readNumber, hwhole]
    simp [Json.takeFraction, Json.takeExponent, Json.readInteger, Nat.lt_succ_of_le h, Except.map]
  simp [Json.readPlain, Json.words, Json.afterWord?, hnumber]

/-- An integer that is too long is refused wherever it stands as a place. -/
lemma ofStored_round {zeros : Nat} (h : Number.longestInteger ≤ zeros) :
    Embedding.ofStored (.text (String.ofList (roundText zeros))) =
      .error (.tooManyDigits (zeros + 1)) := by
  have hfuel : 2 * (roundText zeros).length + 2 = 2 * zeros + 5 + 1 + 1 + 1 := by
    simp [roundText]
    omega
  have hread : Json.readWithin Embedding.nestingLimit (roundText zeros) =
      .error (.tooManyDigits (zeros + 1)) := by
    rw [Json.readWithin, hfuel, roundText]
    simp [Json.skipSpace, Json.isSpace, Json.readValue, Json.readItems, readPlain_round h,
      Except.map, Embedding.nestingLimit]
  have hlast : (roundText zeros).getLast? = some ']' :=
    List.getLast?_concat (l := '[' :: '1' :: List.replicate zeros '0')
  exact Embedding.ofStored_of_noRoom (.inl ⟨_, rfl⟩) rfl hlast hread

lemma search_round {zeros : Nat} (h : Number.longestInteger ≤ zeros) :
    nextTo.found ⟨"v", east, .euclidean⟩ [placed "a" (.text (String.ofList (roundText zeros)))] =
      ⟨[], some (.tooManyDigits (zeros + 1))⟩ := by
  have hstored := ofStored_round h
  generalize String.ofList (roundText zeros) = s at hstored ⊢
  have hextract : Embedding.extract (placed "a" (.text s)) "v" = Embedding.ofStored (.text s) := rfl
  have hdistance : (⟨"v", east, .euclidean⟩ : DistanceKey).ofDocument (placed "a" (.text s)) =
      .error (.tooManyDigits (zeros + 1)) := by
    simp only [DistanceKey.ofDocument, hextract, hstored, Bind.bind, Except.bind]
  simp only [found, nextTo, towards, DistanceKey.within, hdistance]

/-- Metrics with a name that is no text. -/
def oddMetrics : Metrics := ⟨(.bytes [109], .dot) :: Metrics.builtin.entries⟩

/-- A sentence has no limit of more digits than are read, an integer of so many digits in a document
is no mismatch of dimensions, and a builder lists the names of metrics, which have to be texts. -/
theorem not_surfaces_agree :
    ((nearestRound 4300).Askable {} ⟨"v", east, .euclidean⟩ ∧
      (∃ found, (nearestRound 4300).search {} places = .ok found ∧
        Answers {} {} ((nearestRound 4300).build {} places) found) ∧
      (nearestRound 4300).read {} "docs" places = .error (.tooManyDigits 4301)) ∧
    (nextTo.Askable {} ⟨"v", east, .euclidean⟩ ∧
      nextTo.search {} [placed "a" (.text (String.ofList (roundText 4300)))] =
        .ok ⟨[], some (.tooManyDigits 4301)⟩) ∧
    ((∃ found, nextTo.search { metrics := oddMetrics } places = .ok found) ∧
      nextTo.build { metrics := oddMetrics } places =
        .error (.incomparable "<" "bytes" "str")) := by
  refine ⟨⟨askable_nearestRound _, ⟨_, search_eq_found (askable_nearestRound _),
    answers_build _ (askable_nearestRound _)⟩, read_nearestRound (by decide)⟩,
    ⟨askable_nextTo, ?_⟩, ⟨_, rfl⟩, rfl⟩
  rw [search_eq_found askable_nextTo, search_round (by decide)]

end Question

end NearDoc

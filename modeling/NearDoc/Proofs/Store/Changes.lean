import NearDoc.Proofs.Outcome
import NearDoc.Proofs.Store.Ledger

/-!
What a change leaves alone. The log is written and never read: what a change answers and does to the
store depends on the settings, the store and the identifiers generated so far, and the settings stay
as they are. A document that is refused leaves the store as it is.
-/

namespace NearDoc.Session

/-- Sessions that differ in their logs at most. -/
structure Alike (s t : Session) : Prop where
  env : t.env = s.env := by rfl
  store : t.store = s.store := by rfl
  generated : t.generated = s.generated := by rfl

/-- What is done to two sessions alike, seen from the first: it leaves them alike and the settings
as they are, and answers the same. -/
structure Parallel {α : Type} (s : Session) (a b : Session × α) : Prop where
  alike : a.1.Alike b.1
  reply : a.2 = b.2
  env : a.1.env = s.env

variable {s t : Session}

lemma alike_record (s : Session) (records : List Record) : s.Alike (s.record records) := {}

lemma Alike.record (h : s.Alike t) (records : List Record) :
    (s.record records).Alike (t.record records) :=
  ⟨h.env, h.store, h.generated⟩

lemma Parallel.map {α β : Type} {a b : Session × α} (h : Parallel s a b) (f : α → β) :
    Parallel s (a.1, f a.2) (b.1, f b.2) :=
  ⟨h.alike, congrArg f h.reply, h.env⟩

lemma Alike.resolveId (h : s.Alike t) (document id : Value) :
    Parallel s (s.resolveId document id) (t.resolveId document id) := by
  have hnew : Parallel s
      ({ s with generated := s.generated + 1 },
        (.ok (generatedId (s.generated + 1)) : Except Error String))
      ({ t with generated := t.generated + 1 }, .ok (generatedId (t.generated + 1))) :=
    ⟨⟨h.env, h.store, by rw [h.generated]⟩, by rw [h.generated], rfl⟩
  unfold Session.resolveId
  split
  · exact ⟨h, rfl, rfl⟩
  · split
    · split
      · exact hnew
      · exact hnew
      · exact ⟨h, rfl, rfl⟩
    · exact ⟨h, rfl, rfl⟩

lemma Alike.write (h : s.Alike t) (collection : Value) (id body : String) :
    Parallel s (s.write collection id body) (t.write collection id body) := by
  unfold Session.write
  rw [h.store]
  split
  · exact ⟨h.record _, rfl, rfl⟩
  · exact ⟨⟨h.env, rfl, h.generated⟩, rfl, rfl⟩

lemma Alike.insertUnchecked (h : s.Alike t) (collection document id vectorFields : Value) :
    Parallel s (s.insertUnchecked collection document id vectorFields)
      (t.insertUnchecked collection document id vectorFields) := by
  unfold Session.insertUnchecked
  have hid := h.resolveId document id
  generalize s.resolveId document id = a at hid
  generalize t.resolveId document id = b at hid
  obtain ⟨s', reply⟩ := a
  obtain ⟨t', reply'⟩ := b
  obtain ⟨halike, rfl, henv⟩ := hid
  rcases reply with e | key
  · exact ⟨halike, rfl, henv⟩
  · dsimp only
    split
    · exact ⟨halike.record _, rfl, henv⟩
    · split
      · exact ⟨halike.record _, rfl, henv⟩
      · obtain ⟨hfinal, hreply, henv'⟩ := (halike.record _).write collection key _
        exact ⟨hfinal, hreply, henv'.trans henv⟩

lemma Alike.screened (h : s.Alike t) (collection : Value) (document : Supplied) (id : Value)
    {a b : Session × Except Error String} (hab : Parallel s a b) :
    Parallel s (s.screened collection document id a) (t.screened collection document id b) := by
  have hfault : t.insertFault collection document id = s.insertFault collection document id := by
    unfold Session.insertFault
    rw [h.env]
  unfold Session.screened
  rw [hfault]
  split
  · exact hab
  · split
    · exact ⟨h.record _, rfl, rfl⟩
    · exact ⟨h, rfl, rfl⟩

lemma Alike.insert (h : s.Alike t) (collection document id vectorFields : Value) :
    Parallel s (s.insert collection document id vectorFields)
      (t.insert collection document id vectorFields) :=
  h.screened collection document id (h.insertUnchecked collection document id vectorFields)

lemma Alike.insertEach (h : s.Alike t) (collection vectorFields : Value) (ds : List Value) :
    Parallel s (s.insertEach collection vectorFields ds)
      (t.insertEach collection vectorFields ds) := by
  induction ds generalizing s t with
  | nil => exact ⟨h, rfl, rfl⟩
  | cons d ds ih =>
    have hone := h.insert collection d .null vectorFields
    unfold Session.insertEach
    generalize s.insert collection d .null vectorFields = a at hone
    generalize t.insert collection d .null vectorFields = b at hone
    obtain ⟨s', reply⟩ := a
    obtain ⟨t', reply'⟩ := b
    obtain ⟨halike, rfl, henv⟩ := hone
    rcases reply with e | id
    · exact ⟨halike, rfl, henv⟩
    · have hrest := ih halike
      dsimp only
      generalize s'.insertEach collection vectorFields ds = a at hrest
      generalize t'.insertEach collection vectorFields ds = b at hrest
      obtain ⟨s'', reply⟩ := a
      obtain ⟨t'', reply'⟩ := b
      obtain ⟨halike', rfl, henv'⟩ := hrest
      rcases reply with e | ids
      · exact ⟨halike', rfl, henv'.trans henv⟩
      · exact ⟨halike', rfl, henv'.trans henv⟩

lemma Alike.insertMany (h : s.Alike t) (collection documents vectorFields : Value) :
    Parallel s (s.insertMany collection documents vectorFields)
      (t.insertMany collection documents vectorFields) := by
  unfold Session.insertMany
  split
  · exact ⟨h, rfl, rfl⟩
  · exact h.insertEach ..

lemma Alike.delete (h : s.Alike t) (collection id : Value) :
    Parallel s (s.delete collection id) (t.delete collection id) := by
  unfold Session.delete
  rw [h.store]
  split
  · exact ⟨h, rfl, rfl⟩
  · split
    · exact ⟨h.record _, rfl, rfl⟩
    · exact ⟨⟨h.env, rfl, h.generated⟩, rfl, rfl⟩

/-- **One change**: it does the same to sessions alike and leaves the settings as they are. -/
theorem Alike.change (h : s.Alike t) (c : Change) : Parallel s (s.change c) (t.change c) := by
  cases c with
  | insert collection document id vectorFields =>
    exact (h.insert collection document id vectorFields).map _
  | insertMany collection documents vectorFields =>
    exact (h.insertMany collection documents vectorFields).map _
  | delete collection id => exact (h.delete collection id).map _

/-- **Changes**: they do the same to sessions alike and leave the settings as they are. -/
theorem Alike.changeAll (h : s.Alike t) (cs : List Change) :
    Parallel s (s.changeAll cs) (t.changeAll cs) := by
  induction cs generalizing s t with
  | nil => exact ⟨h, rfl, rfl⟩
  | cons c cs ih =>
    obtain ⟨halike, hreply, henv⟩ := h.change c
    obtain ⟨halike', hreply', henv'⟩ := ih halike
    exact ⟨halike', congrArg₂ List.cons hreply hreply', henv'.trans henv⟩

/-! ### Refusals -/

variable {collection document id vectorFields : Value} {e : Error}

lemma store_resolveId (s : Session) (document id : Value) :
    (s.resolveId document id).1.store = s.store := by
  unfold Session.resolveId
  split
  · rfl
  · split
    · split <;> rfl
    · rfl

lemma store_write_of_error {body id : String} (h : (s.write collection id body).2 = .error e) :
    (s.write collection id body).1.store = s.store := by
  unfold Session.write at h ⊢
  split
  · rfl
  · simp_all

lemma store_insertUnchecked_of_error
    (h : (s.insertUnchecked collection document id vectorFields).2 = .error e) :
    (s.insertUnchecked collection document id vectorFields).1.store = s.store := by
  have hid := store_resolveId s document id
  unfold Session.insertUnchecked at h ⊢
  generalize s.resolveId document id = a at hid h
  obtain ⟨s', _ | key⟩ := a
  · exact hid
  · dsimp only at h hid ⊢
    rcases hcast : (castDeclared collection key document vectorFields).2 with e' | ⟨⟩
    · exact hid
    · rcases hbody : bodyText key document with e' | body
      · exact hid
      · simp only [hcast, hbody] at h
        exact (store_write_of_error h).trans hid

/-- A document that is refused leaves the store as it is. -/
theorem store_insert_of_error (h : (s.insert collection document id vectorFields).2 = .error e) :
    (s.insert collection document id vectorFields).1.store = s.store := by
  unfold Session.insert Session.screened at h ⊢
  split
  · rename_i hfault
    rw [hfault] at h
    exact store_insertUnchecked_of_error h
  · split <;> rfl

end NearDoc.Session

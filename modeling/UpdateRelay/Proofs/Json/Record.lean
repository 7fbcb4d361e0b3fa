import UpdateRelay.Json.Messages
import UpdateRelay.Proofs.Json.Number

/-!
# Reading back records

`Shape.TakesAll` says that members as they are written take a draft to another, one after the other.
Then reading the object of these members does so too: `Shape.TakesAll.document?_writeObject`. Events
and commands are read back by this from their members: `Event.ofJson?_toJson`,
`Command.ofJson?_toJson`.
-/

namespace UpdateRelay

namespace Json

/-! ## What follows a member -/

/-- Whether bytes go on as an object does behind a member: with a comma or the closing brace. -/
def EndsMember (bytes : Bytes) : Prop :=
  ∃ byte rest, bytes = byte :: rest ∧ (byte = 0x2c ∨ byte = 0x7d)

theorem EndsMember.noDigit {bytes : Bytes} (ends : EndsMember bytes) : NoDigit bytes := by
  obtain ⟨byte, rest, rfl, rfl | rfl⟩ := ends
  · rintro _ ⟨⟩
    rfl
  · rintro _ ⟨⟩
    rfl

theorem readText_quote (text : String) (rest : Bytes) :
    readText (quote text ++ rest) = some (text, rest) := by
  have written : quote text ++ rest =
      0x22 :: (escape (Bytes.ofText text) ++ quoteMark :: rest) := by
    simp [quote, quoteMark]
  have noBlank : skipBlank (quote text ++ rest) = quote text ++ rest := by
    rw [written]
    rfl
  rw [readText, noBlank, written]
  exact readQuoted_quote text rest

namespace Shape

variable {σ : Type} {shape : Shape σ}

/-- Whether reading a member as it is written takes a draft to another. -/
def Takes (shape : Shape σ) (draft : σ) (member : String × Bytes) (after : σ) : Prop :=
  ∀ rest, EndsMember rest →
    shape.readNamed draft member.1 (member.2 ++ rest) = some (after, rest)

/-- Whether reading members as they are written takes a draft to another. -/
inductive TakesAll (shape : Shape σ) : σ → List (String × Bytes) → σ → Prop
  | nil (draft : σ) : TakesAll shape draft [] draft
  | cons {draft middle after : σ} {member : String × Bytes} {members : List (String × Bytes)}
      (first : shape.Takes draft member middle) (rest : TakesAll shape middle members after) :
      TakesAll shape draft (member :: members) after

/-- A member that the draft has not got yet is put into it. -/
theorem takes_member {α : Type} {name : String} {get : σ → Option α} {put : σ → α → σ}
    {read : Bytes → Option (α × Bytes)} {draft after : σ} {bytes : Bytes} {value : α}
    (known : (shape.members.find? fun known => known.name = name) =
      some (member name get put read))
    (absent : get draft = none) (moved : put draft value = after)
    (reads : ∀ rest, EndsMember rest → read (bytes ++ rest) = some (value, rest)) :
    shape.Takes draft (name, bytes) after := by
  intro rest ends
  simp [readNamed, known, member, absent, reads rest ends, moved]

theorem Takes.readMember {draft after : σ} {member : String × Bytes}
    (takes : shape.Takes draft member after) {rest : Bytes} (ends : EndsMember rest) :
    shape.readMember draft (writeMember member ++ rest) = some (after, rest) := by
  have colon : dropToken [0x3a] (skipBlank (0x3a :: (member.2 ++ rest))) =
      some (member.2 ++ rest) := rfl
  rw [writeMember, List.append_assoc, Shape.readMember, readText_quote, List.cons_append]
  simp only [colon]
  exact takes rest ends

/-! ## Objects -/

theorem intercalate_members (member : String × Bytes) (members : List (String × Bytes)) :
    [0x2c].intercalate ((member :: members).map writeMember) =
      writeMember member ++ members.flatMap fun other => 0x2c :: writeMember other := by
  induction members generalizing member with
  | nil => simp
  | cons second members ih =>
      rw [List.map_cons, List.map_cons, List.intercalate_cons_cons, ← List.map_cons, ih,
        List.flatMap_cons]
      simp

theorem endsMember_members (members : List (String × Bytes)) (rest : Bytes) :
    EndsMember ((members.flatMap fun other => 0x2c :: writeMember other) ++ 0x7d :: rest) := by
  cases members with
  | nil => exact ⟨0x7d, rest, rfl, Or.inr rfl⟩
  | cons member members => exact ⟨0x2c, _, rfl, Or.inl rfl⟩

theorem TakesAll.readMembers {draft after : σ} {members : List (String × Bytes)}
    (takes : shape.TakesAll draft members after) {turns : Nat} (enough : members.length < turns)
    (rest : Bytes) :
    shape.readMembers turns draft
      ((members.flatMap fun other => 0x2c :: writeMember other) ++ 0x7d :: rest) =
        some (after, rest) := by
  induction takes generalizing turns with
  | nil draft =>
      obtain ⟨turns, rfl⟩ := Nat.exists_eq_succ_of_ne_zero (Nat.ne_zero_of_lt enough)
      rfl
  | @cons draft middle after member members first _ ih =>
      obtain ⟨turns, rfl⟩ := Nat.exists_eq_succ_of_ne_zero (Nat.ne_zero_of_lt enough)
      have comma : ∀ bytes, skipBlank (0x2c :: bytes) = 0x2c :: bytes := fun _ => rfl
      have read := first.readMember (endsMember_members members rest)
      rw [List.flatMap_cons, List.append_assoc, List.cons_append, Shape.readMembers, comma]
      simp only [read]
      exact ih (Nat.lt_of_succ_lt_succ enough)

theorem length_le_members (members : List (String × Bytes)) :
    members.length ≤ (members.flatMap fun other => 0x2c :: writeMember other).length := by
  induction members with
  | nil => exact Nat.le_refl 0
  | cons member members ih =>
      rw [List.flatMap_cons, List.length_append, List.length_cons, List.length_cons]
      omega

theorem TakesAll.readObject {draft after : σ} {members : List (String × Bytes)}
    (takes : shape.TakesAll draft members after) (rest : Bytes) :
    shape.readObject draft
      ([0x2c].intercalate (members.map writeMember) ++ 0x7d :: rest) = some (after, rest) := by
  cases takes with
  | nil => rfl
  | @cons _ _ _ member members takes others =>
      have read := takes.readMember (endsMember_members members rest)
      have enough := length_le_members members
      have mark : ∀ more, ∃ bytes, writeMember member ++ more = 0x22 :: bytes := fun more =>
        ⟨_, rfl⟩
      rw [intercalate_members, List.append_assoc]
      obtain ⟨bytes, written⟩ := mark
        ((members.flatMap fun other => 0x2c :: writeMember other) ++ 0x7d :: rest)
      have noBlank : skipBlank (0x22 :: bytes) = 0x22 :: bytes := rfl
      rw [written] at read ⊢
      rw [Shape.readObject, noBlank]
      split
      next brace => simp at brace
      next =>
          rw [read]
          exact others.readMembers (by rw [List.length_append]; omega) rest

/-- The object of some members is read back with whatever stands behind it left alone. -/
theorem TakesAll.read_writeObject {draft after : σ} {members : List (String × Bytes)}
    (takes : shape.TakesAll draft members after) (rest : Bytes) :
    shape.read draft (writeObject members ++ rest) = some (after, rest) := by
  have brace : ∀ bytes, skipBlank (0x7b :: bytes) = 0x7b :: bytes := fun _ => rfl
  rw [writeObject, List.cons_append, List.append_assoc, Shape.read, brace]
  exact takes.readObject rest

theorem TakesAll.document?_writeObject {draft after : σ} {members : List (String × Bytes)}
    (takes : shape.TakesAll draft members after) :
    shape.document? draft (writeObject members) = some after := by
  have read := takes.read_writeObject []
  rw [List.append_nil] at read
  rw [document?, read]
  rfl

end Shape

/-! ## What stands in an object -/

theorem plain_writeMember {member : String × Bytes} (value : Plain member.2) :
    Plain (writeMember member) := by
  have colon : Plain [0x3a] := plain_byte (by decide) (by decide)
  exact (plain_quote member.1).append (colon.append value)

/-- An object of plain values is plain between its braces. -/
theorem plain_members {members : List (String × Bytes)}
    (values : ∀ member ∈ members, Plain member.2) :
    Plain ([0x2c].intercalate (members.map writeMember)) := by
  cases members with
  | nil => exact plain_nil
  | cons member members =>
      have comma : Plain [0x2c] := plain_byte (by decide) (by decide)
      rw [Shape.intercalate_members]
      refine (plain_writeMember (values member List.mem_cons_self)).append (plain_flatMap ?_)
      intro other isOther
      exact comma.append (plain_writeMember (values other (List.mem_cons_of_mem member isOther)))

end Json

/-! ## Events and commands -/

namespace Event

theorem ofJson?_toJson (event : Event) : ofJson? event.toJson = some event := by
  have resource : shape.Takes ⟨none, none, none⟩ ("resource_id", Json.quote event.resource)
      ⟨some event.resource, none, none⟩ :=
    Json.Shape.takes_member rfl rfl rfl fun rest _ => Json.readText_quote event.resource rest
  have count : shape.Takes ⟨some event.resource, none, none⟩
      ("changed_count", Json.writeInteger event.count.toInt)
      ⟨some event.resource, some event.count.toInt, none⟩ :=
    Json.Shape.takes_member rfl rfl rfl fun rest ends => Json.readBounded_writeInteger
      event.count.le_toInt (Int.le_of_lt_add_one event.count.toInt_lt) ends.noDigit
  have message : shape.Takes ⟨some event.resource, some event.count.toInt, none⟩
      ("message", Json.quote event.message)
      ⟨some event.resource, some event.count.toInt, some event.message⟩ :=
    Json.Shape.takes_member rfl rfl rfl fun rest _ => Json.readText_quote event.message rest
  have takes := Json.Shape.TakesAll.cons resource (.cons count (.cons message (.nil _)))
  rw [ofJson?, toJson, takes.document?_writeObject]
  simp

end Event

namespace Command

theorem ofJson?_toJson (command : Command) : ofJson? command.toJson = some command := by
  have resource : shape.Takes ⟨none, none⟩ ("resource_id", Json.quote command.resource)
      ⟨some command.resource, none⟩ :=
    Json.Shape.takes_member rfl rfl rfl fun rest _ => Json.readText_quote command.resource rest
  have action : shape.Takes ⟨some command.resource, none⟩ ("action", Json.quote command.action)
      ⟨some command.resource, some command.action⟩ :=
    Json.Shape.takes_member rfl rfl rfl fun rest _ => Json.readText_quote command.action rest
  have takes := Json.Shape.TakesAll.cons resource (.cons action (.nil _))
  rw [ofJson?, toJson, takes.document?_writeObject]

end Command

end UpdateRelay

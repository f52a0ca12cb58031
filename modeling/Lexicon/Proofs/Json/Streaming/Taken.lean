import Lexicon.Proofs.Json.Streaming.Onward

/-! What a reader has taken does not depend on what follows. -/

namespace Lexicon.Json.Streaming

variable {Value Item : Type}

section Numbers

variable {text rest : List Char}

end Numbers

section Skipping

variable {text rest : List Char}

namespace Due

end Due

end Skipping

section Keeping

/-- What the reader has taken of a text it takes of a longer one too. -/
def Keeps (extend : List Char → Value → Value) (read : List Char → Except Failure Value) : Prop :=
  ∀ text value, read text = .ok value → ∀ more, read (text ++ more) = .ok (extend more value)

/-- A steady reader keeps what it has taken. -/
theorem Steady.keeps {extend : List Char → Value → Value}
    {read : List Char → Except Failure Value} (steady : Steady extend read) : Keeps extend read :=
  fun text _ done more => (done ▸ steady text more).of_ok

/-- It is enough to look at texts that start with no blank. -/
theorem Reader.keeps (reader : Reader Value) (passes : PassesBlanks reader.run)
    (starts : ∀ c others parts, isBlank c = false → reader.run (c :: others) = .ok parts →
      ∀ more, reader.run (c :: (others ++ more)) = .ok (behind more parts)) :
    Keeps behind reader.run := by
  intro text parts done more
  rcases passes.start text with empty | ⟨c, others, seen, same, longer⟩
  · exact absurd (reader.shorter (empty ▸ done)) (Nat.not_lt_zero _)
  · rw [longer more]
    exact starts c others parts seen (same ▸ done) more

end Keeping

section Records

variable {Record Field : Type} [DecidableEq Field] {Content : Field → Type}
  {declaration : Declaration Record Field Content}
  {contents : (field : Field) → Reader (Content field)}
  (keeps : ∀ field, Keeps behind (contents field).run)

include keeps

end Records

end Lexicon.Json.Streaming

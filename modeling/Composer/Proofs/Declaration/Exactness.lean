import Composer.Proofs.Declaration.Completeness.Grammar
import Composer.Proofs.Declaration.Soundness.Grammar

/-!
Reading tokens against the sentences of declaration files. Soundness says that what is read without
errors is written there, completeness that what is written there is read; together they leave room
for one tree only, up to spans.
-/

namespace Composer

theorem Cursor.kinds_of_tokens (file : SourceFile) (tokens : List Token) :
    (Cursor.ofTokens file tokens).kinds =
      (tokens.map (·.kind)).takeWhile (· ≠ .endOfFile) := by
  rw [kinds, of_tokens_ahead, List.takeWhile_map]
  rfl

/-- Tokens are read without errors just where the kinds before the first end-of-file token are a
sentence, and then the tree is the one that the sentence writes. -/
theorem SourceFile.tokens_read_just_as_written (file : SourceFile) (tokens : List Token) :
    let parsed := file.parseTokens tokens
    let kinds := (tokens.map (·.kind)).takeWhile (· ≠ .endOfFile)
    (parsed.log.totalErrors = 0 ↔ ∃ items, ItemsWritten items kinds) ∧
      ∀ items, ItemsWritten items kinds →
        ItemsWritten parsed.tree.items kinds ∧
          parsed.tree.items.map Item.bare = items.map Item.bare := by
  intro parsed kinds
  have ahead : (Cursor.ofTokens file tokens).kinds = kinds := Cursor.kinds_of_tokens file tokens
  have sound : parsed.log.totalErrors = 0 → ItemsWritten parsed.tree.items kinds := by
    intro clean
    rw [← ahead]
    exact (file.parse_tokens_sound tokens clean).2
  have complete : ∀ items, ItemsWritten items kinds → parsed.log.totalErrors = 0 ∧
      parsed.tree.items.map Item.bare = items.map Item.bare := by
    intro items written
    rw [← ahead] at written
    obtain ⟨log, same⟩ := file.parse_tokens_complete written
    exact ⟨congrArg ReportLog.totalErrors log, same⟩
  refine ⟨⟨fun clean => ⟨_, sound clean⟩, fun written => ?_⟩, fun items written => ?_⟩
  · obtain ⟨items, written⟩ := written
    exact (complete items written).1
  · obtain ⟨clean, same⟩ := complete items written
    exact ⟨sound clean, same⟩

/-- The kinds of `component c { storage { v: @u64, } }`. -/
def storageSentence : List TokenKind :=
  [.keyword .component, .identifier "c", .mark .leftBrace, .keyword .storage, .mark .leftBrace,
    .identifier "v", .mark .colon, .mark .atSign, .identifier "u64", .mark .comma,
    .mark .rightBrace, .mark .rightBrace]

def storageMember : MemberDecl :=
  ⟨[], ⟨"v", default⟩, .snapshot (.path [⟨"u64", default⟩] [] default) default, default⟩

def storageComponent : ComponentDecl :=
  ⟨⟨"c", default⟩, some ⟨[storageMember], default⟩, none, [], [], default⟩

theorem storage_sentence_written : ItemsWritten [.component storageComponent] storageSentence := by
  have member : storageMember.Written
      [.identifier "v", .mark .colon, .mark .atSign, .identifier "u64"] :=
    ⟨[], _, .nil, .snapshot (.path .nil .none), rfl⟩
  have block : StorageBlock.Written ⟨[storageMember], default⟩ _ :=
    ⟨_, ⟨_, .cons member .nil, rfl⟩, rfl⟩
  have parts : Sequence ComponentPart.Written [.storage ⟨[storageMember], default⟩] _ :=
    .cons block .nil
  have item : Item.Written (.component storageComponent) storageSentence :=
    ⟨_, _, ⟨_, parts, rfl⟩, ⟨rfl, rfl, rfl, rfl⟩, rfl⟩
  exact .cons item .nil

theorem storage_sentence_read_back :
    let tokens := storageSentence.map fun kind => Token.mk kind default
    let parsed := SourceFile.parseTokens ⟨"c.graft", ""⟩ tokens
    parsed.log.totalErrors = 0 ∧
      parsed.tree.items.map Item.bare = [.component storageComponent.bare] := by
  intro tokens parsed
  have exact := SourceFile.tokens_read_just_as_written ⟨"c.graft", ""⟩ tokens
  exact ⟨exact.1.mpr ⟨_, storage_sentence_written⟩, (exact.2 _ storage_sentence_written).2⟩

end Composer

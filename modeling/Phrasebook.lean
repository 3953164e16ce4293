import Phrasebook.Embedded.Outline
import Phrasebook.PhraseId.Encoding
import Phrasebook.Proofs.Mention
import Phrasebook.Scope.Program
import Phrasebook.Proofs.Check
import Phrasebook.Proofs.References
import Phrasebook.Proofs.Built
import Phrasebook.Proofs.Tables
import Phrasebook.Proofs.TransformErrors
import Phrasebook.Proofs.Bodies
import Phrasebook.Proofs.Errors
import Phrasebook.Proofs.Inheritance
import Phrasebook.Proofs.Redefinition
import Phrasebook.Proofs.Blocks
import Phrasebook.Proofs.Edits
import Phrasebook.Proofs.RedundantSelectors
import Phrasebook.Proofs.RedundantBlocks
import Phrasebook.Proofs.Nesting
import Phrasebook.Proofs.Extension
import Phrasebook.Proofs.Integers
import Phrasebook.Proofs.Grammar
import Phrasebook.Proofs.Holes
import Phrasebook.Proofs.NumericContexts
import Phrasebook.Proofs.Templates
import Phrasebook.Proofs.Concatenation
import Phrasebook.Proofs.Readers
import Phrasebook.Proofs.SourceReading
import Phrasebook.Proofs.SourceCompleteness
import Phrasebook.Proofs.Settling
import Phrasebook.Proofs.Writing
import Phrasebook.Proofs.EmbeddedLocales
import Phrasebook.Proofs.Lexing
import Phrasebook.Proofs.Respelling
import Phrasebook.Proofs.Renumbering
import Phrasebook.Proofs.Alongside
import Phrasebook.Proofs.Agreement
import Phrasebook.Proofs.Scopes
import Phrasebook.Proofs.Sequence
import Phrasebook.Proofs.Spelling
import Phrasebook.Proofs.Unbound
import Phrasebook.Proofs.Index
import Phrasebook.Proofs.ListedIds
import Phrasebook.Proofs.Contradictions
import Phrasebook.Proofs.Contexts
import Phrasebook.Proofs.Bounds
import Phrasebook.Proofs.Continued
import Phrasebook.Proofs.JoinedSources
import Phrasebook.Proofs.Arms
import Phrasebook.Proofs.Cycles
import Phrasebook.Proofs.Lookup
import Phrasebook.Proofs.Relocation
import Phrasebook.Proofs.Dimensions
import Phrasebook.Proofs.BlockTexts
import Phrasebook.Proofs.Joins
import Phrasebook.Proofs.Wrappers
import Phrasebook.Proofs.Visibility
import Phrasebook.Proofs.LegalNames
import Phrasebook.Proofs.TokenPlaces
import Phrasebook.Proofs.Paradigms
import Phrasebook.Proofs.Offsets
import Phrasebook.Proofs.SuffixChains
import Phrasebook.Proofs.TableInvariant
import Phrasebook.Proofs.Suggestions

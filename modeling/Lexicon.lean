import Lexicon.Proofs.Catalog.Admission
import Lexicon.Proofs.Catalog.Attachment
import Lexicon.Proofs.Catalog.Soundness
import Lexicon.Proofs.Expression.Reach
import Lexicon.Proofs.Expression.Scale
import Lexicon.Proofs.Expression.Slash
import Lexicon.Proofs.Number.Shortest
import Lexicon.Proofs.Options.Positional
import Lexicon.Proofs.OrderedMap.FirstOffers
import Lexicon.Proofs.Registry.Admission
import Lexicon.Proofs.Registry.Stripped
import Lexicon.Proofs.Registry.Transcript
import Lexicon.Proofs.Text.Quoted

import TableAsm.Main
import TableAsm.Proofs.Grammar.EndMark
import TableAsm.Proofs.Grammar.Predictive
import TableAsm.Proofs.Grammar.Quoted
import TableAsm.Proofs.Grammar.Refusal
import TableAsm.Proofs.Labels.Naming
import TableAsm.Proofs.Assembly.Faithful
import TableAsm.Proofs.Language.FirstUses
import TableAsm.Proofs.Language.Layout
import TableAsm.Proofs.Lexicon.Describing
import TableAsm.Proofs.Printing.Programs

import PostEditor.PageSession
import PostEditor.Session
import PostEditor.Proofs.Calls
import PostEditor.Proofs.CompleterStep
import PostEditor.Proofs.LastRequest
import PostEditor.Proofs.DraftEdits
import PostEditor.Proofs.Commit
import PostEditor.Proofs.OpenMentions
import PostEditor.Proofs.Choosing
import PostEditor.Proofs.Deleting
import PostEditor.Proofs.Exchange
import PostEditor.Proofs.Fetches
import PostEditor.Proofs.PageExchange
import PostEditor.Proofs.FieldSimulation
import PostEditor.Proofs.MirroredElement
import PostEditor.Proofs.CheckedEdits
import PostEditor.Proofs.CheckedSession
import PostEditor.Proofs.MentionSpans
import PostEditor.Proofs.ShownAnswers
import PostEditor.Proofs.MentionRequests
import PostEditor.Proofs.KeyPresses
import PostEditor.Proofs.AnswerOrder
import PostEditor.Proofs.ValidSelections
import PostEditor.Proofs.Openings
import PostEditor.Proofs.TypedTriggers
import PostEditor.Proofs.TextBehindCaret
import PostEditor.Proofs.TextInFront
import PostEditor.Proofs.MentionLog
import PostEditor.Proofs.ExactTransactions
import PostEditor.Proofs.Undoing
import PostEditor.Proofs.SelectionEdits
import PostEditor.Proofs.MentionExtent
import PostEditor.Proofs.Arrows
import PostEditor.Proofs.LookupReplies
import PostEditor.Proofs.SettingsText
import PostEditor.Proofs.Pictures
import PostEditor.Proofs.LookupAddress
import PostEditor.Proofs.Clamping
import PostEditor.Proofs.TicketRuns
import PostEditor.Proofs.Uploads

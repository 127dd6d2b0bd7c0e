import CasualDate.Main
import CasualDate.Proofs.Finder.Barrier
import CasualDate.Proofs.Finder.Forward
import CasualDate.Proofs.Finder.Rejected
import CasualDate.Proofs.Finder.SelfContained
import CasualDate.Proofs.Resolver.TwoPasses
import CasualDate.Proofs.Resolver.WeekdayPhrase
import CasualDate.Proofs.Resolver.WrittenDate
import CasualDate.Proofs.Finder.Champion
import CasualDate.Proofs.Finder.Offered
import CasualDate.Proofs.Finder.Registered
import CasualDate.Proofs.Finder.GivesWay
import CasualDate.Proofs.Finder.Weekday
import CasualDate.Proofs.Expr.WholeSecond
import CasualDate.Proofs.Finder.WholeSecond
import CasualDate.Proofs.Resolver.WholeSecond
import CasualDate.Proofs.Components.History
import CasualDate.Proofs.Expr.Breakdown
import CasualDate.Proofs.Finder.Breakdown
import CasualDate.Proofs.Reading.InBounds
import CasualDate.Proofs.Resolver.Breakdown
import CasualDate.Proofs.Resolver.Refusal
import CasualDate.Proofs.Shape.Order
import CasualDate.Proofs.Shape.Places
import CasualDate.Proofs.Resolver.NamedPeriod
import CasualDate.Proofs.Calendar.OnePeriodOn
import CasualDate.Proofs.Resolver.Ahead
import CasualDate.Proofs.Finder.Sentences
import CasualDate.Proofs.Calendar.PeriodEnd
import CasualDate.Proofs.Resolver.MiddleOfMonth
import CasualDate.Proofs.Resolver.EndOfMonth
import CasualDate.Proofs.Resolver.LetterCase
import CasualDate.Proofs.Expr.WholeDays
import CasualDate.Proofs.Grammar.TooLarge
import CasualDate.Proofs.Finder.ImpliedTime
import CasualDate.Proofs.Calendar.NextDay
import CasualDate.Proofs.Calendar.ManyPeriodsOn
import CasualDate.Proofs.Expr.DateForms
import CasualDate.Proofs.Ordinal.Read
import CasualDate.Proofs.Layout.Splice
import CasualDate.Proofs.Layout.YearFirst
import CasualDate.Proofs.Token.Runs
import CasualDate.Proofs.Finder.Unmerged
import CasualDate.Proofs.Expr.ThereAndBack
import CasualDate.Proofs.Expr.LeapWeeks
import CasualDate.Proofs.CommandLine.Listing
import CasualDate.Proofs.Expr.Century
import CasualDate.Proofs.Finder.Counted
